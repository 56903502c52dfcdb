-- The mail delivery queue: its rows, its attempts and its delivery notices,
-- with the operations that the workers, the admin, the sender and the bounce
-- gateway run on them. Each operation here is one transaction. The audit log,
-- the heartbeats and the forward and out-of-office rows that these
-- transactions also write are left out: no operation of the queue reads them.
import MoaWorks.Clock
import MoaWorks.Lib.Machine
import MoaWorks.Lib.Table

namespace moaworks.mail_queue

/-! ## The tables -/

inductive QueueStatus
  | queued | processing | blocked | retry_pending | sent | failed | cancelled | result_unknown
  deriving DecidableEq, Repr

/-- The statuses that a delivery can end with. The queue takes all of them
but `quota_deferred`, which its CHECK constraint rejects. -/
inductive ResultStatus
  | sent | retry_pending | failed | blocked | result_unknown | quota_deferred
  deriving DecidableEq, Repr

def ResultStatus.toQueue : ResultStatus → Option QueueStatus
  | .sent => some .sent
  | .retry_pending => some .retry_pending
  | .failed => some .failed
  | .blocked => some .blocked
  | .result_unknown => some .result_unknown
  | .quota_deferred => none

structure DeliveryResult where
  status : ResultStatus
  relay_response : Option String := none
  error_message : Option String := none
  next_attempt_at : Option Time := none
  deriving DecidableEq, Repr

/-- A row of `mail_delivery_queue`. -/
structure QueueRow where
  company_id : String
  provider_config_id : String
  mail_id : String
  recipient_id : String
  status : QueueStatus
  attempt_count : Nat
  next_attempt_at : Option Time
  lease_expires_at : Option Time
  worker_id : Option String
  claim_token : Option String
  claimed_at : Option Time
  send_started_at : Option Time
  last_error : Option String
  accepted_at : Option Time
  sent_at : Option Time
  dsn_action : Option String
  dsn_status_code : Option String
  created_at : Time
  updated_at : Time
  deriving DecidableEq, Repr

/-- A row of `mail_delivery_attempts`, without its random id. -/
structure AttemptRow where
  queue_id : String
  attempt_number : Nat
  result : ResultStatus
  error_message : Option String
  relay_response : Option String
  started_at : Time
  finished_at : Time
  deriving DecidableEq, Repr

structure DeliveryFeedback where
  queue_id : String
  action : String
  status_code : String
  diagnostic : String
  content_sha256 : String
  deriving DecidableEq, Repr

/-- A row of `mail_delivery_feedback`. -/
structure FeedbackRow where
  id : String
  feedback : DeliveryFeedback
  raw_storage_key : String
  received_at : Time
  deriving DecidableEq, Repr

structure Db where
  queue : Table String QueueRow
  attempts : List AttemptRow
  feedback : List FeedbackRow

/-- Why an operation raised. A transaction that raises changes nothing. -/
inductive Failure
  | value (message : String)
  | not_found (message : String)
  | check_violation
  | unique_violation
  | foreign_key_violation
  deriving DecidableEq, Repr

/-! ## Claims -/

/-- The columns of a queue row that `claim_next` hands to the worker. -/
structure Job where
  queue_id : String
  attempt_count : Nat
  company_id : String
  provider_config_id : String
  mail_id : String
  recipient_id : String
  status : QueueStatus
  worker_id : Option String
  claim_token : Option String
  claimed_at : Option Time
  send_started_at : Option Time
  deriving DecidableEq, Repr

def jobOf (queue_id : String) (row : QueueRow) : Job where
  queue_id := queue_id
  attempt_count := row.attempt_count
  company_id := row.company_id
  provider_config_id := row.provider_config_id
  mail_id := row.mail_id
  recipient_id := row.recipient_id
  status := row.status
  worker_id := row.worker_id
  claim_token := row.claim_token
  claimed_at := row.claimed_at
  send_started_at := row.send_started_at

/-- The row waits for a worker. -/
def waiting (s : QueueStatus) : Bool := decide (s = .queued) || decide (s = .retry_pending)

/-- The WHERE clause of `claim_next`. `now` is the clock of the worker and
`clock` the clock of the database. -/
def claimable (now clock : Time) (row : QueueRow) : Bool :=
  (waiting row.status && decide (row.next_attempt_at.getD row.created_at ≤ now)) ||
    (decide (row.status = .processing) && row.lease_expires_at.all (fun t => decide (t ≤ clock)))

/-- The rows that the SELECT can return while other sessions hold locks on `locked`. -/
def candidates (db : Db) (now clock : Time) (locked : Finset String) : Finset String :=
  db.queue.select (fun _ row => claimable now clock row) \ locked

/-- `ORDER BY created_at FOR UPDATE SKIP LOCKED LIMIT 1` returns `picked`. -/
def picks (db : Db) (now clock : Time) (locked : Finset String) : Option String → Bool
  | none => decide (candidates db now clock locked = ∅)
  | some q => decide (q ∈ candidates db now clock locked ∧
      ∀ k ∈ candidates db now clock locked,
        ((db.queue.rows q).map (·.created_at)).getD 0 ≤ ((db.queue.rows k).map (·.created_at)).getD 0)

/-- What `claim_next` comes back with after its first transaction. -/
inductive Claim
  | idle
  | claimed (job : Job)
  | expired (job : Job)
  deriving DecidableEq, Repr

/-- The UPDATE of `claim_next`: the row goes to the worker for two minutes. -/
def claimRow (row : QueueRow) (worker_id token : String) (now : Time) : QueueRow :=
  { row with
    status := .processing, worker_id := some worker_id,
    lease_expires_at := some (now + minutes 2), updated_at := now,
    claim_token := some token, claimed_at := some now, send_started_at := none }

/-- `claim_next` on the row that its SELECT returned. A claim whose lease is
over is only read here: the worker finalizes it in a transaction of its own. -/
def claim_next (db : Db) (worker_id token : String) (now : Time) (picked : Option String) :
    Claim × Db :=
  match picked with
  | none => (.idle, db)
  | some q =>
    match db.queue.rows q with
    | none => (.idle, db)
    | some row =>
      let job := jobOf q row
      if job.status = .processing then (.expired job, db)
      else
        (.claimed { job with
            claim_token := some token, claimed_at := some now,
            send_started_at := none, worker_id := some worker_id },
          { db with queue := db.queue.set q (claimRow row worker_id token now) })

/-- The live claim of the job: its worker, its token, and a lease that is not over. -/
def owns (row : QueueRow) (worker_id : String) (job : Job) (clock : Time) : Bool :=
  decide (row.company_id = job.company_id) && sqlEq row.worker_id (some worker_id) &&
    sqlEq row.claim_token job.claim_token && decide (row.status = .processing) &&
    row.lease_expires_at.any (fun t => decide (clock < t))

/-- The claim of the job, unchanged, with its lease over. `IS NOT DISTINCT
FROM` also matches two NULL tokens. -/
def ownsExpired (row : QueueRow) (job : Job) (clock : Time) : Bool :=
  decide (row.company_id = job.company_id) && decide (row.claim_token = job.claim_token) &&
    row.lease_expires_at.all (fun t => decide (t ≤ clock)) && decide (row.status = .processing)

def renew_claim (db : Db) (worker_id : String) (job : Job) (send_started : Bool)
    (now clock : Time) : Bool × Db :=
  match db.queue.rows job.queue_id with
  | none => (false, db)
  | some row =>
    if owns row worker_id job clock then
      (true, { db with
        queue := db.queue.set job.queue_id { row with
          lease_expires_at := some (now + minutes 2), updated_at := now,
          send_started_at :=
            if send_started then some (row.send_started_at.getD now) else row.send_started_at } })
    else (false, db)

/-- The UPDATE of `finalize_claim`. -/
def finalRow (row : QueueRow) (job : Job) (result : DeliveryResult) (status : QueueStatus)
    (now : Time) : QueueRow :=
  { row with
    status := status, attempt_count := job.attempt_count + 1,
    next_attempt_at := result.next_attempt_at, lease_expires_at := none,
    last_error := result.error_message,
    accepted_at := if result.status = .sent then some now else row.accepted_at,
    sent_at := if result.status = .sent then some now else row.sent_at,
    updated_at := now }

def attemptOf (job : Job) (result : DeliveryResult) (now finished_at : Time) : AttemptRow where
  queue_id := job.queue_id
  attempt_number := job.attempt_count + 1
  result := result.status
  error_message := result.error_message
  relay_response := result.relay_response
  started_at := job.claimed_at.getD now
  finished_at := finished_at

/-- `finalize_claim`: `false` when the claim is no longer the worker's. The
two constraints that its writes can violate make it raise. -/
def finalize_claim (db : Db) (worker_id : String) (job : Job) (result : DeliveryResult)
    (recover_expired : Bool) (now clock finished_at : Time) : Except Failure (Bool × Db) :=
  match db.queue.rows job.queue_id with
  | none => .ok (false, db)
  | some row =>
    if (if recover_expired then ownsExpired row job clock else owns row worker_id job clock) then
      match result.status.toQueue with
      | none => .error .check_violation
      | some status =>
        if db.attempts.any (fun a => decide (a.queue_id = job.queue_id) &&
            decide (a.attempt_number = job.attempt_count + 1)) then .error .unique_violation
        else .ok (true, { db with
          queue := db.queue.set job.queue_id (finalRow row job result status now),
          attempts := db.attempts ++ [attemptOf job result now finished_at] })
    else .ok (false, db)

/-- The result that `claim_next` records for a claim whose lease is over. -/
def leaseExpiredResult : DeliveryResult where
  status := .result_unknown
  error_message := some "LEASE_EXPIRED_RESULT_UNKNOWN: 중복 위험 확인 필요"

/-- Seconds to wait after the quota opens again. `digest8` stands for the
first eight bytes of SHA-256, read as a big-endian number. -/
def deterministic_quota_jitter (digest8 : String → Nat) (queue_id : String)
    (maximum_seconds : Nat) : Nat :=
  digest8 queue_id % (maximum_seconds + 1)

/-- The UPDATE of `defer_claim_for_quota`: the claim is given back and the
attempt is not counted. -/
def deferRow (row : QueueRow) (code : Option String) (next_attempt_at now : Time) : QueueRow :=
  { row with
    status := .retry_pending, next_attempt_at := some next_attempt_at,
    lease_expires_at := none, worker_id := none, last_error := code, updated_at := now }

def defer_claim_for_quota (digest8 : String → Nat) (db : Db) (worker_id : String) (job : Job)
    (code : Option String) (reset_at now clock : Time) : Bool × Db :=
  match db.queue.rows job.queue_id with
  | none => (false, db)
  | some row =>
    if owns row worker_id job clock then
      (true, { db with
        queue := db.queue.set job.queue_id (deferRow row code
          (reset_at + seconds (deterministic_quota_jitter digest8 job.queue_id 300)) now) })
    else (false, db)

/-! ## Retries and notices -/

/-- The states from which the admin can retry a row. -/
def retryable (s : QueueStatus) : Bool :=
  decide (s = .failed) || decide (s = .blocked) || decide (s = .retry_pending) ||
    decide (s = .result_unknown)

/-- `MailDeliveryOperations.retry`. -/
def retry (db : Db) (company_id queue_id : String) (confirm_duplicate_risk : Bool) (now : Time) :
    Except Failure Db :=
  match db.queue.rows queue_id with
  | none => .error (.value "재시도할 수 없는 큐 상태입니다.")
  | some row =>
    if !(decide (row.company_id = company_id) && retryable row.status) then
      .error (.value "재시도할 수 없는 큐 상태입니다.")
    else if decide (row.status = .result_unknown) && !confirm_duplicate_risk then
      .error (.value "결과불명 발송은 중복 위험을 명시적으로 확인해야 재시도할 수 있습니다.")
    else .ok { db with
      queue := db.queue.set queue_id { row with
        status := .queued, next_attempt_at := some now, lease_expires_at := none,
        worker_id := none, claim_token := none, claimed_at := none, send_started_at := none,
        updated_at := now } }

/-- The columns of the `mail_messages` row that `retry_scheduled_mail` reads. -/
structure MessageRow where
  company_id : String
  sender_user_id : String
  sender_deleted : Bool
  status : String
  deriving DecidableEq, Repr

/-- The rows of a mail that its sender can send again: the provider `ready`
says delivers, and the row failed or is blocked. -/
def ownerRetries (ready : Finset String) (mail_id : String) (row : QueueRow) : Bool :=
  decide (row.mail_id = mail_id) && (decide (row.status = .failed) || decide (row.status = .blocked)) &&
    decide (row.provider_config_id ∈ ready)

/-- `retry_scheduled_mail` for a mail that is `sent`. A mail that is still
`scheduled` is dispatched instead, which only inserts new queue rows. -/
def retry_scheduled_mail (db : Db) (company_id user_id mail_id : String)
    (message : Option MessageRow) (ready : Finset String) (now : Time) : Except Failure Db :=
  match message with
  | none => .error (.not_found "메일을 찾을 수 없습니다.")
  | some m =>
    if !(decide (m.company_id = company_id) && decide (m.sender_user_id = user_id) &&
        !m.sender_deleted) then .error (.not_found "메일을 찾을 수 없습니다.")
    else if m.status = "scheduled" then .ok db
    else if m.status ≠ "sent" then .error (.value "발송 실패 메일만 재시도할 수 있습니다.")
    else if db.queue.select (fun _ row => ownerRetries ready mail_id row) = ∅ then
      .error (.value "재시도할 외부 전달 실패가 없거나 Provider가 준비되지 않았습니다.")
    else .ok { db with
      queue := db.queue.update (fun _ row => ownerRetries ready mail_id row) (fun row => { row with
        status := .queued, next_attempt_at := some now, lease_expires_at := none,
        worker_id := none, last_error := none, updated_at := now }) }

/-- The status that a delivery notice sets, from its action. -/
def terminal_status (action : String) : QueueStatus :=
  if action = "failed" then .failed
  else if action = "expired" then .failed
  else if action = "delayed" then .retry_pending
  else if action = "delivered" then .sent
  else if action = "relayed" then .sent
  else .failed

def feedback_id (feedback : DeliveryFeedback) : String :=
  "feedback_" ++ String.ofList (feedback.content_sha256.toList.take 24)

/-- `MailDeliveryFeedbackOperations.record`: `false` when the notice was
recorded before. The id is the primary key, so two notices whose digests
start alike clash. -/
def record (db : Db) (feedback : DeliveryFeedback) (raw_storage_key : String) (now : Time) :
    Except Failure (Bool × Db) :=
  if db.feedback.any (fun f => decide (f.feedback.queue_id = feedback.queue_id) &&
      decide (f.feedback.content_sha256 = feedback.content_sha256)) then .ok (false, db)
  else if db.feedback.any (fun f => decide (f.id = feedback_id feedback)) then
    .error .unique_violation
  else
    match db.queue.rows feedback.queue_id with
    | none => .error .foreign_key_violation
    | some row => .ok (true, { db with
        feedback := db.feedback ++ [⟨feedback_id feedback, feedback, raw_storage_key, now⟩],
        queue := db.queue.set feedback.queue_id { row with
          status := terminal_status feedback.action, dsn_action := some feedback.action,
          dsn_status_code := some feedback.status_code, last_error := some feedback.diagnostic,
          updated_at := now } })

/-- A new queue row, as the senders insert it: it waits for a worker, or it
is blocked because the provider does not deliver. -/
def newRow (company_id provider_config_id mail_id recipient_id : String) (blocked : Bool)
    (next_attempt_at : Option Time) (now : Time) : QueueRow where
  company_id := company_id
  provider_config_id := provider_config_id
  mail_id := mail_id
  recipient_id := recipient_id
  status := if blocked then .blocked else .queued
  attempt_count := 0
  next_attempt_at := next_attempt_at
  lease_expires_at := none
  worker_id := none
  claim_token := none
  claimed_at := none
  send_started_at := none
  last_error := none
  accepted_at := none
  sent_at := none
  dsn_action := none
  dsn_status_code := none
  created_at := now
  updated_at := now

end moaworks.mail_queue
