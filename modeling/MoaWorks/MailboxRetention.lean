-- Retention of mail: which views a batch selects, and the guarded UPDATEs that trash or purge them.
import MoaWorks.MailboxSettings

namespace moaworks.mailbox_settings

open mail_messenger_service (AuthUserSummary Db Mail MailStatus Recipient RowId User)

/-! ## Ages -/

def days (n : Nat) : Time := minutes (1440 * n)

/-- `t < NOW() - INTERVAL 'n days'`, which is not true of NULL. -/
def olderThan (n : Nat) (now : Time) (t : Option Time) : Bool :=
  t.any (fun t => decide (t + days n < now))

/-- `p.retention_days IS NOT NULL AND t < NOW() - make_interval(days => p.retention_days)`, for the
policy that is joined. -/
def pastPolicy (p : Option Policy) (now : Time) (t : Option Time) : Bool :=
  (p.bind Policy.retention_days).any (fun n => olderThan n now t)

/-! ## Candidates -/

inductive RetentionAction
  | purge | trash
  deriving DecidableEq, Repr

/-- A row of `candidates`. -/
structure Candidate where
  view_id : RowId
  view_type : ViewType
  mailbox : MailboxScope
  action : RetentionAction
  eligible_at : Option Time
  company_id : String
  user_id : Option String
  deriving DecidableEq, Repr

/-- The user of a row of `users`, as the queries of a session know one. -/
def asActor (user_id : String) (u : User) : AuthUserSummary := ⟨user_id, u.company_id, u.email⟩

/-- The CASE of a received mail: its mailbox. -/
def retentionMailbox (r : Recipient) : MailboxScope :=
  if r.deleted_at.isSome then .trash else if r.is_spam then .spam else
    match r.folder_id with
    | some folder_id => .folder folder_id
    | none => .inbox

/-- The policy that the LEFT JOIN finds for a received mail. -/
def receivedPolicy (r : Recipient) : PolicyType :=
  match r.folder_id with
  | some folder_id => .folder folder_id
  | none => .inbox

/-- The policy whose `mailbox_type` is the status. -/
def statusPolicy : MailStatus → Option PolicyType
  | .sent => some .sent
  | .draft => some .draft
  | .scheduled => none
  | .cancelled => none

variable (d : Database)

/-- What the UNION makes of a received mail and a user. -/
def recipientCandidate (now : Time) (user_id : String) (u : User) (id : RowId) (r : Recipient) :
    Option Candidate :=
  let policy := d.policies.rows ⟨u.company_id, user_id, receivedPolicy r⟩
  if received d (asActor user_id u) r && r.purged_at.isNone &&
      ((r.deleted_at.isSome && olderThan 30 now r.deleted_at) ||
        (r.deleted_at.isNone && r.is_spam && olderThan 30 now r.received_at) ||
        (r.deleted_at.isNone && !r.is_spam && pastPolicy policy now r.received_at)) then
    some { view_id := id
           view_type := .recipient
           mailbox := retentionMailbox r
           action := if r.deleted_at.isSome then .purge else .trash
           eligible_at := r.deleted_at <|> r.received_at
           company_id := u.company_id
           user_id := some user_id }
  else none

/-- The policy that the LEFT JOIN finds for an own mail. -/
def ownPolicy (m : Mail) : Option Policy :=
  m.sender_user_id.bind (fun user_id => (statusPolicy m.status).bind (fun mailbox =>
    d.policies.rows ⟨m.company_id, user_id, mailbox⟩))

def senderCandidate (now : Time) (id : RowId) (m : Mail) : Option Candidate :=
  if m.sender_purged_at.isNone && (decide (m.status = .sent) || decide (m.status = .draft)) &&
      saved m &&
      ((m.sender_deleted_at.isSome && olderThan 30 now m.sender_deleted_at) ||
        (m.sender_deleted_at.isNone &&
          pastPolicy (ownPolicy d m) now (m.sent_at <|> some m.updated_at))) then
    (senderMailbox m).map (fun mailbox =>
      { view_id := id
        view_type := .sender
        mailbox := mailbox
        action := if m.sender_deleted_at.isSome then .purge else .trash
        eligible_at := m.sender_deleted_at <|>
          (if m.status = .sent then m.sent_at else some m.updated_at)
        company_id := m.company_id
        user_id := m.sender_user_id })
  else none

/-- The candidates of received mail, for each user that a row belongs to. -/
def recipientCandidates (now : Time) : Multiset Candidate :=
  (d.mail.settings.users.collect (fun user_id u => some (user_id, u))).bind (fun user =>
    d.mail.recipients.collect (recipientCandidate d now user.1 user.2))

def senderCandidates (now : Time) : Multiset Candidate :=
  d.mail.mails.collect (senderCandidate d now)

def candidates (now : Time) : Multiset Candidate := recipientCandidates d now + senderCandidates d now

/-- `ORDER BY eligible_at`, where NULL comes last. -/
def Candidate.first (c c' : Candidate) : Prop :=
  ∀ t', c'.eligible_at = some t' → ∃ t, c.eligible_at = some t ∧ t ≤ t'

/-- What `_retention_candidates_sql` may select; candidates of one time come in any order. -/
def IsBatch (now : Time) (limit : Nat) (batch : List Candidate) : Prop :=
  ∃ all : List Candidate, (all : Multiset Candidate) = candidates d now ∧
    all.Pairwise Candidate.first ∧ batch = all.take limit

/-! ## The updates -/

/-- What the candidates are grouped by. -/
structure GroupKey where
  view_type : ViewType
  action : RetentionAction
  mailbox : MailboxScope
  company_id : String
  user_id : Option String
  deriving DecidableEq, Repr

def Candidate.key (c : Candidate) : GroupKey :=
  ⟨c.view_type, c.action, c.mailbox, c.company_id, c.user_id⟩

/-- `groups`, in the order in which their first candidates come. -/
def groupsOf (batch : List Candidate) : List (GroupKey × List RowId) :=
  (batch.map Candidate.key).eraseDups.map (fun key =>
    (key, (batch.filter (fun c => c.key = key)).map Candidate.view_id))

/-- The join with the mail and the user of a group. -/
def receivedIn (key : GroupKey) (r : Recipient) : Bool :=
  key.user_id.any (fun user_id => (d.mail.settings.users.rows user_id).any (fun u =>
    decide (u.company_id = key.company_id) && received d (asActor user_id u) r))

/-- The folder predicate of a group of received mail: the folder, or none. -/
def keyFolder (key : GroupKey) : Option String :=
  match key.mailbox with
  | .folder folder_id => some folder_id
  | _ => none

def keyPolicy (key : GroupKey) : Option Policy :=
  key.user_id.bind (fun user_id => d.policies.rows ⟨key.company_id, user_id,
    match key.mailbox with
    | .folder folder_id => .folder folder_id
    | _ => .inbox⟩)

/-- The WHERE clauses of the three UPDATEs of received mail. -/
def purgesRecipient (now : Time) (key : GroupKey) (r : Recipient) : Bool :=
  receivedIn d key r && r.deleted_at.isSome && olderThan 30 now r.deleted_at && r.purged_at.isNone

def trashesSpam (now : Time) (key : GroupKey) (r : Recipient) : Bool :=
  receivedIn d key r && r.live && r.is_spam && olderThan 30 now r.received_at

def trashesReceived (now : Time) (key : GroupKey) (r : Recipient) : Bool :=
  receivedIn d key r && r.live && !r.is_spam && decide (r.folder_id = keyFolder key) &&
    pastPolicy (keyPolicy d key) now r.received_at

/-- The mails of the sender of a group. -/
def writtenIn (key : GroupKey) (m : Mail) : Bool :=
  decide (m.company_id = key.company_id) && m.sender_user_id.isSome &&
    decide (m.sender_user_id = key.user_id)

/-- The WHERE clauses of the two UPDATEs of own mail. -/
def purgesMail (now : Time) (key : GroupKey) (m : Mail) : Bool :=
  writtenIn key m && (decide (m.status = .sent) || decide (m.status = .draft)) && saved m &&
    m.sender_deleted_at.isSome && olderThan 30 now m.sender_deleted_at && m.sender_purged_at.isNone

def trashesMail (now : Time) (key : GroupKey) (m : Mail) : Bool :=
  writtenIn key m && decide (statusMailbox m.status = some key.mailbox) && saved m && m.live &&
    pastPolicy (ownPolicy d m) now (if m.status = .sent then m.sent_at else some m.updated_at)

/-- `SET sender_deleted_at = %s`. -/
def retireMail (stamp : Time) (m : Mail) : Mail := { m with sender_deleted_at := some stamp }

/-- `UPDATE mail_recipients ... WHERE mr.id = ANY(ids)`. -/
def updateRecipients (ids : List RowId) (p : Recipient → Bool) (f : Recipient → Recipient) :
    Database :=
  { d with mail := { d.mail with
    recipients := d.mail.recipients.update (fun id r => decide (id ∈ ids) && p r) f } }

def updateMails (ids : List RowId) (p : Mail → Bool) (f : Mail → Mail) : Database :=
  { d with mail := { d.mail with
    mails := d.mail.mails.update (fun id m => decide (id ∈ ids) && p m) f } }

/-- The UPDATE of one group; `now` is NOW() and `stamp` the time that is written. -/
def applyGroup (now stamp : Time) (group : GroupKey × List RowId) : Database :=
  match group.1.view_type, group.1.action with
  | .recipient, .purge =>
    updateRecipients d group.2 (purgesRecipient d now group.1) (purgeRecipient stamp)
  | .recipient, .trash =>
    if group.1.mailbox = .spam then
      updateRecipients d group.2 (trashesSpam d now group.1) (trashRecipient stamp)
    else updateRecipients d group.2 (trashesReceived d now group.1) (trashRecipient stamp)
  | .sender, .purge => updateMails d group.2 (purgesMail now group.1) (purgeMail stamp)
  | .sender, .trash => updateMails d group.2 (trashesMail d now group.1) (retireMail stamp)

def _apply_retention_candidates (batch : List Candidate) (now stamp : Time) : Database :=
  (groupsOf batch).foldl (fun d group => applyGroup d now stamp group) d

/-- One `run_retention_batch` that has taken its lock, at a time and with the batch that the query
selects. -/
inductive RunBatch (limit : Nat) (now : Time) : Database → Database → Prop
  | run {d : Database} {batch : List Candidate} {start stamp : Time} :
    now ≤ start → start ≤ stamp → IsBatch d start limit batch →
    RunBatch limit now d (_apply_retention_candidates d batch start stamp)

/-- So many batches, one after another. -/
inductive RunBatches (limit : Nat) (now : Time) : Nat → Database → Database → Prop
  | none (d : Database) : RunBatches limit now 0 d d
  | next {n : Nat} {d d' d'' : Database} : RunBatches limit now n d d' →
    RunBatch limit now d' d'' → RunBatches limit now (n + 1) d d''

end moaworks.mailbox_settings
