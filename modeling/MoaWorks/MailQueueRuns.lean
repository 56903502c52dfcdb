-- The runs of the delivery queue: any number of workers, the admin, the
-- senders and the bounce gateway, one transaction after another, over one
-- monotone clock. What a step can do to one row is said once, in `RowStep`.
import MoaWorks.Lib.History
import MoaWorks.MailQueue

namespace moaworks.mail_queue

variable {clock now : Time} {db db' : Db} {worker : String} {job : Job}

/-! ## Events and actions -/

/-- What the transactions did, oldest first in the log of a run. -/
inductive Event
  | enqueued (queue_id : String)
  | claimed (job : Job)
  | expired (job : Job)
  | renewed (job : Job)
  | finalized (job : Job) (attempt : AttemptRow) (recover_expired : Bool)
  | deferred (job : Job)
  | retried (queue_id : String) (confirm_duplicate_risk : Bool)
  | ownerRetried (rows : Finset String)
  | noticed (queue_id action : String) (found : QueueStatus)
  deriving DecidableEq

/-- The queue rows that an event is about. -/
def Event.about (q : String) : Event → Prop
  | .enqueued k => k = q
  | .claimed job => job.queue_id = q
  | .expired job => job.queue_id = q
  | .renewed job => job.queue_id = q
  | .finalized job _ _ => job.queue_id = q
  | .deferred job => job.queue_id = q
  | .retried k _ => k = q
  | .ownerRetried rows => q ∈ rows
  | .noticed k _ _ => k = q

/-- The job that an event hands to a worker: a new claim, or the copy of a
claim whose lease is over. -/
def Event.handed : Event → Option Job
  | .claimed job => some job
  | .expired job => some job
  | _ => none

/-- The token that an event issues. -/
def Event.issues : Event → Option String
  | .claimed job => job.claim_token
  | _ => none

def Event.attempt : Event → Option AttemptRow
  | .finalized _ a _ => some a
  | _ => none

/-- The attempt row that an event writes for a claim token. -/
def Event.attemptUnder (token : String) : Event → Option AttemptRow
  | .finalized job a _ => if job.claim_token = some token then some a else none
  | _ => none

def issued (log : List Event) (token : String) : Prop :=
  ∃ e ∈ log, e.issues = some token

instance (log : List Event) (token : String) : Decidable (issued log token) :=
  inferInstanceAs (Decidable (∃ e ∈ log, e.issues = some token))

/-- The job was handed to a worker at some time. -/
def handedOut (log : List Event) (job : Job) : Prop :=
  ∃ e ∈ log, e.handed = some job

instance (log : List Event) (job : Job) : Decidable (handedOut log job) :=
  inferInstanceAs (Decidable (∃ e ∈ log, e.handed = some job))

/-- One call of one of the parties. -/
inductive Call
  | enqueue (queue_id company_id provider_config_id mail_id recipient_id : String)
      (blocked : Bool) (next_attempt_at : Option Time)
  | claim_next (worker_id token : String) (locked : Finset String) (picked : Option String)
  | renew_claim (worker_id : String) (job : Job) (send_started : Bool)
  | finalize_claim (worker_id : String) (job : Job) (result : DeliveryResult) (finished_at : Time)
  | recover_expired (worker_id : String) (job : Job) (finished_at : Time)
  | defer_claim_for_quota (worker_id : String) (job : Job) (code : Option String) (reset_at : Time)
  | retry (company_id queue_id : String) (confirm_duplicate_risk : Bool)
  | retry_scheduled_mail (company_id user_id mail_id : String) (message : Option MessageRow)
      (ready : Finset String)
  | record (feedback : DeliveryFeedback) (raw_storage_key : String)

/-- A call with the time its caller read before it and the time of the
database at its statement. -/
structure Action where
  call : Call
  now : Time
  clock : Time

structure World where
  db : Db
  clock : Time
  log : List Event

/-! ## The machine -/

variable (digest8 : String → Nat)

/-- The transaction of a call, or `none` when it changes nothing. A worker
calls only with a job that it was handed, and tokens are fresh. -/
def perform (db : Db) (log : List Event) (now clock : Time) : Call → Option (Db × Event)
  | .enqueue q company provider mail recipient blocked next =>
    match db.queue.rows q with
    | some _ => none
    | none => some ({ db with
        queue := db.queue.set q (newRow company provider mail recipient blocked next now) },
        .enqueued q)
  | .claim_next worker token locked picked =>
    if picks db now clock locked picked = true ∧ ¬ issued log token then
      match claim_next db worker token now picked with
      | (.idle, _) => none
      | (.claimed job, db') => some (db', .claimed job)
      | (.expired job, db') => some (db', .expired job)
    else none
  | .renew_claim worker job send_started =>
    if handedOut log job then
      match renew_claim db worker job send_started now clock with
      | (true, db') => some (db', .renewed job)
      | (false, _) => none
    else none
  | .finalize_claim worker job result finished_at =>
    if handedOut log job then
      match finalize_claim db worker job result false now clock finished_at with
      | .ok (true, db') => some (db', .finalized job (attemptOf job result now finished_at) false)
      | _ => none
    else none
  | .recover_expired worker job finished_at =>
    if Event.expired job ∈ log then
      match finalize_claim db worker job leaseExpiredResult true now clock finished_at with
      | .ok (true, db') =>
        some (db', .finalized job (attemptOf job leaseExpiredResult now finished_at) true)
      | _ => none
    else none
  | .defer_claim_for_quota worker job code reset_at =>
    if handedOut log job then
      match defer_claim_for_quota digest8 db worker job code reset_at now clock with
      | (true, db') => some (db', .deferred job)
      | (false, _) => none
    else none
  | .retry company q confirm =>
    match retry db company q confirm now with
    | .ok db' => some (db', .retried q confirm)
    | .error _ => none
  | .retry_scheduled_mail company user mail message ready =>
    match retry_scheduled_mail db company user mail message ready now with
    | .ok db' => some (db', .ownerRetried
        (if message.any (fun m => decide (m.status = "sent")) then
          db.queue.select (fun _ row => ownerRetries ready mail row) else ∅))
    | .error _ => none
  | .record feedback key =>
    match record db feedback key now, db.queue.rows feedback.queue_id with
    | .ok (true, db'), some row => some (db', .noticed feedback.queue_id feedback.action row.status)
    | _, _ => none

/-- One step: the clock of the database does not go back, and the time that
the caller read is not later than it. -/
def step (w : World) (a : Action) : Option World :=
  if w.clock ≤ a.clock ∧ a.now ≤ a.clock then
    (perform digest8 w.db w.log a.now a.clock a.call).map
      (fun (db, e) => ⟨db, a.clock, w.log ++ [e]⟩)
  else none

def emptyDb : Db := ⟨Table.empty, [], []⟩

/-- The queue as the machine that starts empty. -/
def machine : Machine World Action where
  Start w := w.db = emptyDb ∧ w.log = []
  step := step digest8

def emptyWorld : World := ⟨emptyDb, 0, []⟩

theorem emptyWorld_start : (machine digest8).Start emptyWorld := ⟨rfl, rfl⟩

/-! ## What one step does to one row -/

/-- What one step with event `e` does to the row `q`, at the time `clock` and
after the events of `log`. -/
inductive RowStep (log : List Event) (clock : Time) (q : String) :
    Event → Option QueueRow → Option QueueRow → Prop
  | other {e : Event} {r : Option QueueRow} : ¬ e.about q → RowStep log clock q e r r
  | enqueued (company provider mail recipient : String) (blocked : Bool) (next : Option Time)
      (now : Time) : RowStep log clock q (.enqueued q) none
        (some (newRow company provider mail recipient blocked next now))
  | claimed (row : QueueRow) (worker token : String) (now : Time) :
      waiting row.status = true → row.next_attempt_at.getD row.created_at ≤ now →
      ¬ issued log token →
      RowStep log clock q (.claimed { jobOf q row with
          claim_token := some token, claimed_at := some now,
          send_started_at := none, worker_id := some worker })
        (some row) (some (claimRow row worker token now))
  | expired (row : QueueRow) : row.status = .processing →
      (∀ t, row.lease_expires_at = some t → t ≤ clock) →
      RowStep log clock q (.expired (jobOf q row)) (some row) (some row)
  | renewed (row : QueueRow) (job : Job) (worker : String) (lease now : Time)
      (started : Option Time) :
      job.queue_id = q → handedOut log job → owns row worker job clock = true →
      RowStep log clock q (.renewed job) (some row)
        (some { row with
          lease_expires_at := some lease, updated_at := now, send_started_at := started })
  | finalized (row : QueueRow) (job : Job) (worker : String) (result : DeliveryResult)
      (status : QueueStatus) (recover : Bool) (now finished : Time) :
      job.queue_id = q → handedOut log job → result.status.toQueue = some status →
      (if recover then ownsExpired row job clock else owns row worker job clock) = true →
      RowStep log clock q (.finalized job (attemptOf job result now finished) recover)
        (some row) (some (finalRow row job result status now))
  | deferred (row : QueueRow) (job : Job) (worker : String) (code : Option String)
      (next now : Time) :
      job.queue_id = q → handedOut log job → owns row worker job clock = true →
      RowStep log clock q (.deferred job) (some row) (some (deferRow row code next now))
  | retried (row : QueueRow) (confirm : Bool) (now : Time) :
      retryable row.status = true → (row.status = .result_unknown → confirm = true) →
      RowStep log clock q (.retried q confirm) (some row)
        (some { row with
          status := .queued, next_attempt_at := some now, lease_expires_at := none,
          worker_id := none, claim_token := none, claimed_at := none, send_started_at := none,
          updated_at := now })
  | ownerRetried (row : QueueRow) (rows : Finset String) (now : Time) :
      q ∈ rows → row.status = .failed ∨ row.status = .blocked →
      RowStep log clock q (.ownerRetried rows) (some row)
        (some { row with
          status := .queued, next_attempt_at := some now, lease_expires_at := none,
          worker_id := none, last_error := none, updated_at := now })
  | noticed (row : QueueRow) (feedback : DeliveryFeedback) (now : Time) :
      RowStep log clock q (.noticed q feedback.action row.status) (some row)
        (some { row with
          status := terminal_status feedback.action, dsn_action := some feedback.action,
          dsn_status_code := some feedback.status_code, last_error := some feedback.diagnostic,
          updated_at := now })

variable {log : List Event} {e : Event}

/-- A write of one row `k`: any other row keeps its value. -/
theorem RowStep.of_set {t : Table String QueueRow} {k : String} {row : QueueRow}
    (he : ∀ q, e.about q ↔ q = k) (h : RowStep log clock k e (t.rows k) (some row)) (q : String) :
    RowStep log clock q e (t.rows q) ((t.set k row).rows q) := by
  by_cases hq : q = k
  · subst hq
    rw [Table.rows_set_self]
    exact h
  · rw [Table.rows_set_ne _ _ hq]
    exact .other (fun ha => hq ((he q).mp ha))

/-- What a transaction does: to each row what `RowStep` says, and to the
ledger of attempts one more row for a finalized claim. -/
structure Does (db : Db) (log : List Event) (clock : Time) (db' : Db) (e : Event) : Prop where
  rows : ∀ q, RowStep log clock q e (db.queue.rows q) (db'.queue.rows q)
  attempts : db'.attempts = db.attempts ++ e.attempt.toList

theorem claimable_of_picks {locked : Finset String} {q : String} {row : QueueRow}
    (h : picks db now clock locked (some q) = true) (hrow : db.queue.rows q = some row) :
    claimable now clock row = true := by
  unfold picks candidates at h
  rw [decide_eq_true_eq, Finset.mem_sdiff, Table.mem_select] at h
  obtain ⟨⟨⟨r, hr, hc⟩, _⟩, _⟩ := h
  rw [hrow, Option.some.injEq] at hr
  subst hr
  exact hc

theorem enqueue_does {q company provider mail recipient : String} {blocked : Bool}
    {next : Option Time} (h : perform digest8 db log now clock
      (.enqueue q company provider mail recipient blocked next) = some (db', e)) :
    Does db log clock db' e := by
  simp only [perform] at h
  rcases hrow : db.queue.rows q with _ | row
  · simp only [hrow, Option.some.injEq, Prod.mk.injEq] at h
    obtain ⟨rfl, rfl⟩ := h
    refine ⟨RowStep.of_set (fun k => eq_comm) ?_, by simp [Event.attempt]⟩
    rw [hrow]
    exact .enqueued company provider mail recipient blocked next now
  · simp [hrow] at h

theorem claim_next_does {token : String} {locked : Finset String} {picked : Option String}
    (h : perform digest8 db log now clock (.claim_next worker token locked picked)
      = some (db', e)) : Does db log clock db' e := by
  simp only [perform] at h
  split at h
  · rename_i hg
    obtain ⟨hpick, hfresh⟩ := hg
    rcases picked with _ | q
    · simp [claim_next] at h
    · rcases hrow : db.queue.rows q with _ | row
      · simp [claim_next, hrow] at h
      · have hc := claimable_of_picks hpick hrow
        simp only [claimable, Bool.or_eq_true, Bool.and_eq_true, decide_eq_true_eq] at hc
        by_cases hp : row.status = .processing
        · have hj : (jobOf q row).status = .processing := hp
          simp only [claim_next, hrow, hj, if_true, Option.some.injEq, Prod.mk.injEq] at h
          obtain ⟨rfl, rfl⟩ := h
          refine ⟨fun k => ?_, by simp [Event.attempt]⟩
          by_cases hk : k = q
          · subst hk
            rw [hrow]
            refine .expired row hp (fun t ht => ?_)
            rcases hc with ⟨hw, _⟩ | ⟨_, ho⟩
            · simp [waiting, hp] at hw
            · simpa [ht] using ho
          · exact .other (fun ha => hk ha.symm)
        · have hj : ¬ (jobOf q row).status = .processing := hp
          simp only [claim_next, hrow, hj, if_false, Option.some.injEq, Prod.mk.injEq] at h
          obtain ⟨rfl, rfl⟩ := h
          refine ⟨RowStep.of_set (fun k => eq_comm) ?_, by simp [Event.attempt]⟩
          rw [hrow]
          rcases hc with ⟨hw, hd⟩ | ⟨hp', _⟩
          · exact .claimed row worker token now hw hd hfresh
          · exact absurd hp' hp
  · simp at h

theorem renew_claim_does {send_started : Bool}
    (h : perform digest8 db log now clock (.renew_claim worker job send_started)
      = some (db', e)) : Does db log clock db' e := by
  simp only [perform] at h
  split at h
  · rename_i hj
    rcases hrow : db.queue.rows job.queue_id with _ | row
    · simp [renew_claim, hrow] at h
    · by_cases ho : owns row worker job clock = true
      · simp only [renew_claim, hrow, ho, if_true, Option.some.injEq, Prod.mk.injEq] at h
        obtain ⟨rfl, rfl⟩ := h
        refine ⟨RowStep.of_set (fun k => eq_comm) ?_, by simp [Event.attempt]⟩
        rw [hrow]
        exact .renewed row job worker _ now _ rfl hj ho
      · simp [renew_claim, hrow, ho] at h
  · simp at h

/-- Both modes of `finalize_claim`. -/
theorem finalize_does {finished : Time} {result : DeliveryResult} {recover : Bool}
    (hj : handedOut log job)
    (h : finalize_claim db worker job result recover now clock finished = .ok (true, db')) :
    Does db log clock db' (.finalized job (attemptOf job result now finished) recover) := by
  unfold finalize_claim at h
  rcases hrow : db.queue.rows job.queue_id with _ | row
  · simp [hrow] at h
  · rw [hrow] at h
    simp only at h
    by_cases ho : (if recover then ownsExpired row job clock else owns row worker job clock) = true
    · rw [if_pos ho] at h
      rcases hs : result.status.toQueue with _ | status
      · simp [hs] at h
      · rw [hs] at h
        simp only at h
        split at h
        · simp at h
        · simp only [Except.ok.injEq, Prod.mk.injEq, true_and] at h
          subst h
          refine ⟨RowStep.of_set (fun k => eq_comm) ?_, by simp [Event.attempt]⟩
          rw [hrow]
          exact .finalized row job worker result status recover now finished rfl hj hs ho
    · rw [if_neg ho] at h
      simp at h

theorem handedOut_of_expired (h : Event.expired job ∈ log) : handedOut log job := ⟨_, h, rfl⟩

theorem finalize_claim_does {result : DeliveryResult} {finished : Time}
    (h : perform digest8 db log now clock (.finalize_claim worker job result finished)
      = some (db', e)) : Does db log clock db' e := by
  simp only [perform] at h
  split at h
  · rename_i hj
    split at h
    · rename_i hf
      simp only [Option.some.injEq, Prod.mk.injEq] at h
      obtain ⟨rfl, rfl⟩ := h
      exact finalize_does hj hf
    · simp at h
  · simp at h

theorem recover_expired_does {finished : Time}
    (h : perform digest8 db log now clock (.recover_expired worker job finished)
      = some (db', e)) : Does db log clock db' e := by
  simp only [perform] at h
  split at h
  · rename_i hj
    split at h
    · rename_i hf
      simp only [Option.some.injEq, Prod.mk.injEq] at h
      obtain ⟨rfl, rfl⟩ := h
      exact finalize_does (handedOut_of_expired hj) hf
    · simp at h
  · simp at h

theorem defer_claim_does {code : Option String} {reset_at : Time}
    (h : perform digest8 db log now clock (.defer_claim_for_quota worker job code reset_at)
      = some (db', e)) : Does db log clock db' e := by
  simp only [perform] at h
  split at h
  · rename_i hj
    rcases hrow : db.queue.rows job.queue_id with _ | row
    · simp [defer_claim_for_quota, hrow] at h
    · by_cases ho : owns row worker job clock = true
      · simp only [defer_claim_for_quota, hrow, ho, if_true, Option.some.injEq,
          Prod.mk.injEq] at h
        obtain ⟨rfl, rfl⟩ := h
        refine ⟨RowStep.of_set (fun k => eq_comm) ?_, by simp [Event.attempt]⟩
        rw [hrow]
        exact .deferred row job worker code _ now rfl hj ho
      · simp [defer_claim_for_quota, hrow, ho] at h
  · simp at h

theorem retry_does {company q : String} {confirm : Bool}
    (h : perform digest8 db log now clock (.retry company q confirm) = some (db', e)) :
    Does db log clock db' e := by
  simp only [perform, retry] at h
  rcases hrow : db.queue.rows q with _ | row
  · simp [hrow] at h
  · rw [hrow] at h
    simp only at h
    by_cases hr : (decide (row.company_id = company) && retryable row.status) = true
    · by_cases hu : (decide (row.status = .result_unknown) && !confirm) = true
      · simp [hr, hu] at h
      · rw [Bool.not_eq_true] at hu
        simp only [hr, hu, Bool.not_true, Bool.false_eq_true, if_false, Option.some.injEq,
          Prod.mk.injEq] at h
        obtain ⟨rfl, rfl⟩ := h
        refine ⟨RowStep.of_set (fun k => eq_comm) ?_, by simp [Event.attempt]⟩
        rw [hrow]
        rw [Bool.and_eq_true] at hr
        refine .retried row confirm now hr.2 (fun hs => ?_)
        simpa [hs] using hu
    · simp [hr] at h

theorem record_does {feedback : DeliveryFeedback} {key : String}
    (h : perform digest8 db log now clock (.record feedback key) = some (db', e)) :
    Does db log clock db' e := by
  simp only [perform, record] at h
  rcases hrow : db.queue.rows feedback.queue_id with _ | row
  · simp only [hrow] at h
    split at h
    · rename_i h1 h2
      simp at h2
    · simp at h
  · simp only [hrow] at h
    split at h
    · rename_i h1 h2
      simp only [Option.some.injEq, Prod.mk.injEq] at h h2
      subst h2
      obtain ⟨rfl, rfl⟩ := h
      split at h1
      · simp at h1
      · split at h1
        · simp at h1
        · simp only [Except.ok.injEq, Prod.mk.injEq, true_and] at h1
          subst h1
          refine ⟨RowStep.of_set (fun k => eq_comm) ?_, by simp [Event.attempt]⟩
          rw [hrow]
          exact .noticed row feedback now
    · simp at h

theorem retry_scheduled_does {company user mail : String} {message : Option MessageRow}
    {ready : Finset String}
    (h : perform digest8 db log now clock (.retry_scheduled_mail company user mail message ready)
      = some (db', e)) : Does db log clock db' e := by
  simp only [perform, retry_scheduled_mail] at h
  rcases message with _ | m
  · simp at h
  · simp only [Option.any_some] at h
    split at h
    · rename_i h1
      simp only [Option.some.injEq, Prod.mk.injEq] at h
      obtain ⟨rfl, rfl⟩ := h
      split at h1
      · simp at h1
      · split at h1
        · rename_i hs
          simp only [Except.ok.injEq] at h1
          subst h1
          refine ⟨fun q => .other ?_, by simp [Event.attempt]⟩
          simp [Event.about, hs]
        · split at h1
          · simp at h1
          · rename_i hs
            rw [ne_eq, not_not] at hs
            split at h1
            · simp at h1
            · simp only [Except.ok.injEq] at h1
              subst h1
              simp only [hs, decide_true, if_true]
              refine ⟨fun q => ?_, by simp [Event.attempt]⟩
              rcases hrow : db.queue.rows q with _ | row
              · simp only [Table.rows_update, hrow, Option.map_none]
                exact .other (by simp [Event.about, Table.mem_select, hrow])
              · simp only [Table.rows_update, hrow, Option.map_some]
                by_cases ho : ownerRetries ready mail row = true
                · rw [if_pos ho]
                  refine .ownerRetried row _ now ?_ ?_
                  · rw [Table.mem_select]
                    exact ⟨row, hrow, ho⟩
                  · simp only [ownerRetries, Bool.and_eq_true, Bool.or_eq_true,
                      decide_eq_true_eq] at ho
                    exact ho.1.2
                · rw [if_neg ho]
                  refine .other ?_
                  simp [Event.about, Table.mem_select, hrow, ho]
    · simp at h

/-- Every step of the queue, whatever its call. -/
theorem step_does {w w' : World} {a : Action} (h : step digest8 w a = some w') :
    ∃ e, Does w.db w.log a.clock w'.db e ∧ w'.log = w.log ++ [e] ∧ w'.clock = a.clock ∧
      w.clock ≤ a.clock ∧ a.now ≤ a.clock := by
  unfold step at h
  split at h
  · rename_i hc
    rw [Option.map_eq_some_iff] at h
    obtain ⟨⟨db', e⟩, hp, rfl⟩ := h
    refine ⟨e, ?_, rfl, rfl, hc.1, hc.2⟩
    obtain ⟨call, now, clock⟩ := a
    cases call with
    | enqueue => exact enqueue_does digest8 hp
    | claim_next => exact claim_next_does digest8 hp
    | renew_claim => exact renew_claim_does digest8 hp
    | finalize_claim => exact finalize_claim_does digest8 hp
    | recover_expired => exact recover_expired_does digest8 hp
    | defer_claim_for_quota => exact defer_claim_does digest8 hp
    | retry => exact retry_does digest8 hp
    | retry_scheduled_mail => exact retry_scheduled_does digest8 hp
    | record => exact record_does digest8 hp
  · simp at h

end moaworks.mail_queue
