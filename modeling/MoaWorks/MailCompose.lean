-- How a mail goes out: the rules that run for each recipient, the mail that is saved, and
-- the dispatch of a mail that was scheduled.
import MoaWorks.MailViews
import Mathlib.Data.String.Basic

namespace moaworks.mail_messenger_service

open directory_store (Status)
open mail_daily_send_quota (usageDate)
open mail_policies
open mail_provider_configs (ProviderRow)
open Raise (require found)

/-! ## Writes -/

def Db.insertMail (db : Db) (id : RowId) (m : Mail) : Db := { db with mails := db.mails.set id m }

/-- UPDATE of the mail with an id. -/
def Db.updateMail (db : Db) (id : RowId) (f : Mail → Mail) : Db :=
  let mails := db.mails.update (fun key _ => decide (key = id)) f
  { db with mails := mails }

def Db.insertRecipient (db : Db) (id : RowId) (r : Recipient) : Db :=
  { db with recipients := db.recipients.set id r }

/-- UPDATE of the recipient with an id, with further conditions. -/
def Db.updateRecipient (db : Db) (id : RowId) (p : Recipient → Bool) (f : Recipient → Recipient) :
    Db :=
  let recipients := db.recipients.update (fun key r => decide (key = id) && p r) f
  { db with recipients := recipients }

/-- INSERT … ON CONFLICT DO NOTHING. -/
def Db.addTag (db : Db) (recipient_id : RowId) (tag_id : String) (now : Time) : Db :=
  if (db.recipient_tags.rows (recipient_id, tag_id)).isSome then db
  else { db with recipient_tags := db.recipient_tags.set (recipient_id, tag_id) now }

/-- INSERT … ON CONFLICT DO NOTHING. -/
def Db.enqueue (db : Db) (mail_id recipient_id : RowId) (delivery : Delivery) : Db :=
  if (db.queue.rows (mail_id, recipient_id)).isSome then db
  else { db with queue := db.queue.set (mail_id, recipient_id) delivery }

/-- INSERT … ON CONFLICT DO NOTHING. -/
def Db.recordForward (db : Db) (origin : RowId) (target_email : String) (row : ForwardDelivery) :
    Db :=
  if (db.forwards.rows (origin, target_email)).isSome then db
  else { db with forwards := db.forwards.set (origin, target_email) row }

def Db.insertAttachments (db : Db) (call : Nat) (rows : List Attachment) : Db :=
  rows.zipIdx.foldl (fun db row =>
    { db with attachments := db.attachments.set (.attachment call row.2) row.1 }) db

/-- Back to the savepoint when the body raises. -/
def savepoint (db : Db) (result : Except Error Db) : Db :=
  match result with
  | .ok db' => db'
  | .error _ => db

/-! ## Users and providers -/

/-- The active users of a company, by lower-case address. -/
def Settings.activeUsers (settings : Settings) (company_id : String) : List (String × String) :=
  settings.users.orderedKeys.filterMap (fun id =>
    ((settings.users.rows id).filter (fun u =>
      decide (u.company_id = company_id) && decide (u.status = .active))).map
        (fun u => (Text.lower u.email, id)))

/-- The users as a dictionary, in which the last of equal addresses counts. -/
def Settings.active_users (settings : Settings) (company_id email : String) : Option String :=
  ((settings.activeUsers company_id).reverse.find? (fun user => decide (user.1 = email))).map
    Prod.snd

def _resolve_user_id_by_email (settings : Settings) (company_id email : String) : Option String :=
  settings.users.orderedKeys.find? (fun id => (settings.users.rows id).any (fun u =>
    decide (u.company_id = company_id) && decide (Text.lower u.email = Text.lower email)))

def _fetch_mail_account (settings : Settings) (user_id : String) : Except Error Account := do
  let account ← found (settings.accounts.rows user_id) (.value_error "메일 계정을 찾을 수 없습니다.")
  require (account.status = .active) (.permission_error "메일 계정이 활성 상태가 아닙니다.")
  return account

/-- The active account of a user of the company. -/
def Settings.ownerAccount (settings : Settings) (company_id user_id : String) : Option Account :=
  (settings.accounts.rows user_id).filter (fun account => decide (account.status = .active) &&
    (settings.users.rows user_id).any (fun u => decide (u.company_id = company_id)))

/-- `OutboundProviderResolver.resolve`. -/
def resolve (settings : Settings) (company_id : String) : Except Error ProviderRow :=
  match settings.providers.orderedKeys.filterMap (fun id => (settings.providers.rows id).filter
      (fun row => decide (row.company_id = company_id) && row.active)) with
  | [row] => .ok row
  | _ => .error (.value_error "회사의 활성 발송 Provider가 정확히 하나여야 합니다.")

/-- The queue row of a mail that goes out through a provider. -/
def newDelivery (provider : ProviderRow) (company_id : String) (kind : DeliveryKind)
    (sender_email_override reply_to_email_override : Option String) (now : Time) : Delivery where
  company_id := company_id
  provider_config_id := provider.id
  status := if provider.passesGate then .queued else .blocked
  next_attempt_at := if provider.passesGate then some now else none
  delivery_kind := kind
  sender_email_override := sender_email_override
  reply_to_email_override := reply_to_email_override
  created_at := now

def forwardStatus (provider : ProviderRow) : ForwardStatus :=
  if provider.passesGate then .queued else .blocked

/-- A row that nobody has read, starred or filed yet. -/
def newRecipient (message_id : RowId) (place : Place) (email : String) (kind : Kind)
    (source : DeliverySource) (received_at : Option Time) : Recipient where
  message_id := message_id
  recipient_user_id := place.user
  recipient_email := email
  recipient_kind := kind
  is_read := false
  read_at := none
  is_starred := false
  received_at := received_at
  inbox_category := none
  folder_id := none
  is_spam := false
  spam_marked_at := none
  deleted_at := none
  purged_at := none
  delivery_source := source
  auto_forward_owner_user_id := none
  auto_forward_origin_recipient_id := none

/-- `is_spam` and `spam_marked_at` after a decision. -/
def Recipient.judged (r : Recipient) (spam : Bool) (now : Time) : Recipient :=
  { r with is_spam := spam, spam_marked_at := if spam then some now else none }

/-! ## The rules -/

/-- What the rules of a recipient are asked about. -/
structure Occasion where
  company_id : String
  mail_id : RowId
  sender_email : String
  subject : String
  body : String
  has_attachment : Bool
  is_auto_generated : Bool
  call : Nat
  now : Time

variable (codec : Codec) (o : Occasion)

def _evaluate_recipient_spam (settings : Settings) (user_id : String) : Bool :=
  is_spam codec ((settings.spam.rows (o.company_id, user_id)).getD ⟨true, []⟩) o.sender_email

def auto_classification.evaluate_recipient (settings : Settings) (user_id : String)
    (context : Context) : AutoClassificationDecision :=
  match settings.classification.rows (o.company_id, user_id) with
  | none => ⟨[], none, []⟩
  | some policy => mail_policies.evaluate_recipient policy context

def auto_classification.apply_recipient (user_id : String) (recipient_id : RowId)
    (context : Context) (db : Db) : Db :=
  let decision := auto_classification.evaluate_recipient o db.settings user_id context
  if decision.matchedRuleIds = [] then db
  else
    let filed := match decision.folderId with
      | none => db
      | some folder_id => db.updateRecipient recipient_id
          (fun r => decide (r.recipient_user_id = some user_id) && !r.is_spam)
          (fun r => { r with folder_id := some folder_id })
    decision.tagIds.foldl (fun db tag_id => db.addTag recipient_id tag_id o.now) filed

def _apply_auto_classification (user_id : String) (recipient_id : RowId) (recipient_email : String)
    (db : Db) : Except Error Db := do
  let context ← classificationContext codec o.sender_email recipient_email o.subject o.body
    o.has_attachment
  return auto_classification.apply_recipient o user_id recipient_id context db

/-! ## Forwarding -/

/-- The addresses that a mail was sent to. -/
def Db.directEmails (db : Db) (mail_id : RowId) : Finset String :=
  (db.recipients.select (fun _ r => decide (r.message_id = mail_id) &&
    decide (r.delivery_source = .direct) && decide (r.recipient_email ≠ ""))).image
      (fun id => ((db.recipients.rows id).map Recipient.recipient_email).getD "")

/-- One of the addresses is the target. -/
def isDirect (direct : Finset String) (email : String) : Bool :=
  decide (∃ address ∈ direct, (normalize_forward_email codec address).toOption = some email)

/-- `classify_internal`, for the row of a target. -/
def classify_internal (target_user_id : String) (forwarded_recipient_id : RowId)
    (target_email : String) (db : Db) : Except Error Db :=
  let spam := _evaluate_recipient_spam codec o db.settings target_user_id
  let db := db.updateRecipient forwarded_recipient_id
    (fun r => decide (r.recipient_user_id = some target_user_id) &&
      decide (r.delivery_source = .auto_forward)) (fun r => r.judged spam o.now)
  if spam then .ok db
  else _apply_auto_classification codec o target_user_id forwarded_recipient_id target_email db

/-- One turn of the loop of `apply_recipient` over the targets. -/
def forwardTo (user_id : String) (recipient_id : RowId) (owner : Account)
    (provider : Option ProviderRow) (exception_id : Option String) (db : Db)
    (item : ForwardTarget) : Except Error Db := do
  let forwarded_recipient_id := RowId.forwarded o.call recipient_id item.normalized_email
  let received_at := match item.place with
    | .internal _ => some o.now
    | .external => none
  let db := db.insertRecipient forwarded_recipient_id
    { newRecipient o.mail_id item.place item.normalized_email .to .auto_forward received_at with
      auto_forward_owner_user_id := some user_id
      auto_forward_origin_recipient_id := some recipient_id }
  let row (status : ForwardStatus) (queue_id : Option (RowId × RowId)) : ForwardDelivery :=
    { company_id := o.company_id
      user_id := user_id
      origin_mail_id := o.mail_id
      exception_id := exception_id
      target_user_id := item.place.user
      forwarded_recipient_id := forwarded_recipient_id
      delivery_queue_id := queue_id
      status := status
      created_at := o.now }
  match item.place with
  | .internal target_user_id => do
    let db ← classify_internal codec o target_user_id forwarded_recipient_id item.normalized_email db
    return db.recordForward recipient_id item.normalized_email (row .internal_delivered none)
  | .external => do
    let provider ← found provider .key_error
    let db := db.enqueue o.mail_id forwarded_recipient_id (newDelivery provider o.company_id
      .auto_forward (some owner.email) (some o.sender_email) o.now)
    return db.recordForward recipient_id item.normalized_email
      (row (forwardStatus provider) (some (o.mail_id, forwarded_recipient_id)))

/-- The condition of `reconcile_original_retention` on the row. -/
def reconciles (db : Db) (origin : RowId) (r : Recipient) : Bool :=
  decide (r.delivery_source = .direct) &&
    decide (db.forwards.select (fun key _ => decide (key.1 = origin))).Nonempty &&
    decide (db.forwards.select (fun key row =>
      decide (key.1 = origin) && decide (row.status ≠ .internal_delivered)) = ∅) &&
    (db.mails.rows r.message_id).any (fun m => r.recipient_user_id.any (fun user_id =>
      (db.settings.forwarding.rows (m.company_id, user_id)).any (fun p => !p.keep_original)))

def reconcile_original_retention (origin : RowId) (now : Time) (db : Db) : Db :=
  db.updateRecipient origin (reconciles db origin) (fun r => { r with deleted_at := some now })

/-- The targets that are left: not forwarded to yet, and not among the addresses of the mail. -/
def forwardTargets (policy : ForwardSettings) (recipient_id : RowId) (direct : Finset String)
    (db : Db) : Except Error (List String × Option String) := do
  let decision ← AutoForwardDecision.from_rules codec policy o.sender_email
  let pending := decision.1.filter (fun email => (db.forwards.rows (recipient_id, email)).isNone)
  require (∀ address ∈ direct, (normalize_forward_email codec address).isOk = true)
    (.value_error "이메일 주소를 확인해 주세요.")
  return (pending.filter (fun email => !isDirect codec direct email), decision.2)

/-- The account and the provider that a forward needs, and what stands behind each address. -/
def forwardMeans (settings : Settings) (policy : ForwardSettings) (user_id : String)
    (targets : List String) : Except Error (Account × Option ProviderRow × List ForwardTarget) := do
  let owner ← found (settings.ownerAccount o.company_id user_id)
    (.value_error "자동전달 소유자의 메일 계정을 찾을 수 없습니다.")
  let items ← targets.mapM (fun email => found (policy.by_email email) .key_error)
  let provider ← if items.any (fun item => decide (item.place = .external)) then
      (resolve settings o.company_id).map some
    else .ok none
  return (owner, provider, items)

/-- The body of `apply_recipient`; `direct` are the addresses of the mail. -/
def auto_forwarding.forward (user_id : String) (recipient_id : RowId) (direct : Finset String)
    (db : Db) : Except Error Db :=
  match db.settings.forwarding.rows (o.company_id, user_id) with
  | none => .ok db
  | some policy =>
    if policy.enabled = false then .ok db
    else do
      let targets ← forwardTargets codec o policy recipient_id direct db
      if targets.1 = [] then return db
      let means ← forwardMeans o db.settings policy user_id targets.1
      let db ← means.2.2.foldlM
        (forwardTo codec o user_id recipient_id means.1 means.2.1 targets.2) db
      return if policy.keep_original then db else reconcile_original_retention recipient_id o.now db

def auto_forwarding.apply_recipient (user_id : String) (recipient_id : RowId) (db : Db) : Db :=
  savepoint db (auto_forwarding.forward codec o user_id recipient_id (db.directEmails o.mail_id) db)

/-! ## Absence -/

/-- The sender is one that the policy answers, and the user behind the address. -/
def answers (policy : AbsencePolicy) (kind : SenderKind) : Option Place :=
  match kind with
  | .suppressed => none
  | .internal user_id => if policy.target_scope = .external then none else some (.internal user_id)
  | .external => if policy.target_scope = .internal then none else some .external

/-- The body of `apply_recipient` once the policy answers. -/
def out_of_office.respond (user_id : String) (recipient_id : RowId) (policy : AbsencePolicy)
    (owner : Account) (place : Place) (db : Db) : Except Error Db := do
  let normalized_sender ← normalize_out_of_office_email codec o.sender_email
  let key : AbsenceKey := ⟨o.company_id, user_id, policy.start_date, policy.end_date,
    normalized_sender⟩
  if (db.absences.rows key).isSome then return db
  let response_mail_id := RowId.response o.call recipient_id
  let response_recipient_id := RowId.response_recipient o.call recipient_id
  let db := db.insertMail response_mail_id
    { company_id := o.company_id
      sender_user_id := some user_id
      sender_email := owner.email
      subject := policy.subject
      body_text := policy.message_text
      status := .sent
      sent_at := some o.now
      scheduled_at := none
      updated_at := o.now
      attachment_count := 0
      source_message_id := some o.mail_id
      sender_copy_saved := false
      is_auto_generated := true
      sender_deleted_at := none
      sender_purged_at := none }
  let received_at := match place with
    | .internal _ => some o.now
    | .external => none
  let db := db.insertRecipient response_recipient_id
    (newRecipient response_mail_id place normalized_sender .to .out_of_office received_at)
  let row (status : ForwardStatus) (queue_id : Option (RowId × RowId)) : AbsenceDelivery :=
    { origin_mail_id := o.mail_id
      origin_recipient_id := recipient_id
      internal := decide (place ≠ .external)
      response_mail_id := response_mail_id
      response_recipient_id := response_recipient_id
      delivery_queue_id := queue_id
      status := status
      created_at := o.now }
  match place with
  | .internal _ =>
    return { db with absences := db.absences.set key (row .internal_delivered none) }
  | .external => do
    let provider ← resolve db.settings o.company_id
    let db := db.enqueue response_mail_id response_recipient_id (newDelivery provider o.company_id
      .out_of_office (some owner.email) none o.now)
    let answered := row (forwardStatus provider) (some (response_mail_id, response_recipient_id))
    return { db with absences := db.absences.set key answered }

/-- Whether the absence of a user answers the sender, and from which account. -/
def out_of_office.evaluate (settings : Settings) (user_id : String) :
    Except Error (Option (AbsencePolicy × Account × Place)) :=
  match settings.absence.rows (o.company_id, user_id),
    settings.ownerAccount o.company_id user_id with
  | some policy, some owner =>
    if policy.active (usageDate o.now) = false then .ok none
    else do
      if ← should_suppress_out_of_office codec o.sender_email owner.email o.is_auto_generated then
        return none
      let domain ← found (settings.companies.rows o.company_id) .key_error
      let kind ← classify_out_of_office_sender codec o.sender_email
        (settings.activeUsers o.company_id) domain
      return (answers policy kind).map (fun place => (policy, owner, place))
  | _, _ => .ok none

def out_of_office.apply_recipient (user_id : String) (recipient_id : RowId) (db : Db) : Db :=
  savepoint db (do
    match ← out_of_office.evaluate codec o db.settings user_id with
    | none => return db
    | some (policy, owner, place) =>
      out_of_office.respond codec o user_id recipient_id policy owner place db)

/-! ## A recipient -/

/-- The rules that a mail to a user runs through when it is no spam. -/
def applyRules (user_id : String) (recipient_id : RowId) (recipient_email : String) (db : Db) :
    Except Error Db := do
  let db ← _apply_auto_classification codec o user_id recipient_id recipient_email db
  let db := auto_forwarding.apply_recipient codec o user_id recipient_id db
  return out_of_office.apply_recipient codec o user_id recipient_id db

end moaworks.mail_messenger_service
