-- The operations that save mails, change the scheduled ones and send them out.
import MoaWorks.MailCompose

namespace moaworks.mail_messenger_service

open directory_store (Status)
open mail_policies
open mail_provider_configs (ProviderRow)
open Raise (require found)

/-! ## Requests -/

/-- What `validate_emails` leaves of an address. -/
structure ValidEmail (email : String) : Prop where
  normalized : Text.lower (Text.strip email) = email
  at_sign : contains "@" email = true
  not_first : startswith email "@" = false
  not_last : endswith email "@" = false

/-- An attachment that `resolve` found in the storage. -/
structure Upload where
  inline : Bool
  storage_key : String
  deriving DecidableEq, Repr

structure MailSendRequest where
  to_ : List String
  cc : List String
  bcc : List String
  subject : String
  bodyText : String
  attachments : List Upload
  scheduledAt : Option Time
  sourceMailId : Option RowId
  copiedAttachmentIds : List RowId
  /-- The work of `validate_emails`. -/
  valid_emails : ∀ email ∈ to_ ++ cc ++ bcc, ValidEmail email
  /-- The work of `dedupe_recipient_kinds`. -/
  deduped : (to_ ++ cc ++ bcc).Nodup

def MailSendRequest.recipient_pairs (payload : MailSendRequest) : List (Kind × String) :=
  payload.to_.map (Kind.to, ·) ++ payload.cc.map (Kind.cc, ·) ++ payload.bcc.map (Kind.bcc, ·)

/-- `MailScheduledUpdateRequest`; `referenced` are the inline attachments that the body names. -/
structure MailScheduledUpdateRequest extends MailSendRequest where
  retainedAttachmentIds : Option (List RowId)
  referenced : List RowId

/-! ## Saving a mail -/

/-- Who stands behind each address: a draft takes what it finds, the others are classified. -/
def recipientPlaces (settings : Settings) (company_id : String) (status : MailStatus)
    (pairs : List (Kind × String)) : Except Error (List ((Kind × String) × Place)) :=
  if status = .draft then
    .ok (pairs.map (fun pair => (pair,
      match _resolve_user_id_by_email settings company_id pair.2 with
      | some user_id => .internal user_id
      | none => .external)))
  else do
    let domain ← found (settings.companies.rows company_id) .key_error
    classify domain (settings.active_users company_id) pairs

/-- One turn of the loop of `_save_mail` over the recipients. -/
def saveRecipient (codec : Codec) (o : Occasion) (status : MailStatus)
    (provider : Option ProviderRow) (db : Db) (entry : (Kind × String) × Place) :
    Except Error Db :=
  let ((kind, email), place) := entry
  let recipient_id := RowId.recipient o.call email
  let row := newRecipient o.mail_id place email kind .direct
  match place with
  | .internal user_id =>
    if status = .sent then
      let spam := _evaluate_recipient_spam codec o db.settings user_id
      let db := db.insertRecipient recipient_id ((row (some o.now)).judged spam o.now)
      if spam then .ok db else applyRules codec o user_id recipient_id email db
    else .ok (db.insertRecipient recipient_id (row none))
  | .external =>
    let db := db.insertRecipient recipient_id (row none)
    if status = .sent then do
      let provider ← found provider .key_error
      let delivery := newDelivery provider o.company_id .direct none none o.now
      return { db with queue := db.queue.set (o.mail_id, recipient_id) delivery }
    else .ok db

def attachmentRows (mail_id : RowId) (uploads : List Upload) : List Attachment :=
  uploads.map (fun upload => ⟨mail_id, upload.inline, some upload.storage_key⟩)

/-- `_save_mail`; a copied attachment keeps its place in the storage. -/
def _save_mail (codec : Codec) (db : Db) (actor : AuthUserSummary) (payload : MailSendRequest)
    (status : MailStatus) (call : Nat) (now : Time) : Except Error Db := do
  let account ← _fetch_mail_account db.settings actor.userId
  let source_attachments ← checkSource db actor payload.sourceMailId payload.copiedAttachmentIds
  let attachments := payload.attachments ++
    source_attachments.map (fun row => ⟨row.inline, row.storage_key.getD ""⟩)
  let places ← recipientPlaces db.settings actor.companyId status payload.recipient_pairs
  let provider ← if status ≠ .draft ∧ places.any (fun entry => decide (entry.2 = .external)) then
      (resolve db.settings actor.companyId).map some
    else .ok none
  let mail_id := RowId.mail call
  let o : Occasion :=
    { company_id := actor.companyId
      mail_id := mail_id
      sender_email := account.email
      subject := Text.strip payload.subject
      body := payload.bodyText
      has_attachment := decide (attachments ≠ [])
      is_auto_generated := false
      call := call
      now := now }
  let db := db.insertMail mail_id
    { company_id := actor.companyId
      sender_user_id := some actor.userId
      sender_email := account.email
      subject := Text.strip payload.subject
      body_text := payload.bodyText
      status := status
      sent_at := if status = .sent then some now else none
      scheduled_at := if status = .scheduled then payload.scheduledAt else none
      updated_at := now
      attachment_count := attachments.length
      source_message_id := payload.sourceMailId
      sender_copy_saved := (db.settings.save_sent_copy.rows actor.userId).getD true
      is_auto_generated := false
      sender_deleted_at := none
      sender_purged_at := none }
  let db ← places.foldlM (saveRecipient codec o status provider) db
  return db.insertAttachments call (attachmentRows mail_id attachments)

def send_mail (codec : Codec) (db : Db) (actor : AuthUserSummary) (payload : MailSendRequest)
    (call : Nat) (now : Time) : Except Error Db := do
  require (payload.recipient_pairs ≠ []) (.value_error "수신자를 1명 이상 입력해야 합니다.")
  let status := if payload.scheduledAt.isSome then MailStatus.scheduled else .sent
  _save_mail codec db actor payload status call now

def save_draft (codec : Codec) (db : Db) (actor : AuthUserSummary) (payload : MailSendRequest)
    (call : Nat) (now : Time) : Except Error Db :=
  _save_mail codec db actor payload .draft call now

/-! ## Dispatch -/

/-- The rows of a scheduled mail that go to a user and were not delivered yet. -/
def internalRecipients (db : Db) (mail_id : RowId) : Finset RowId :=
  db.recipients.select (fun _ r => decide (r.message_id = mail_id) && r.recipient_user_id.isSome &&
    r.received_at.isNone && decide (r.delivery_source = .direct))

/-- One turn of the loop of `_dispatch_scheduled_mail_row`, for a row as it was fetched. -/
def dispatchRecipient (codec : Codec) (o : Occasion) (db : Db) (fetched : RowId × String × String) :
    Except Error Db :=
  let (id, user_id, email) := fetched
  let spam := _evaluate_recipient_spam codec o db.settings user_id
  let db := db.updateRecipient id
    (fun r => decide (r.message_id = o.mail_id) && decide (r.recipient_user_id = some user_id))
    (fun r => { r.judged spam o.now with received_at := some o.now })
  if spam then .ok db else applyRules codec o user_id id email db

/-- The rows in the order in which the query returns them. -/
def fetchRows (db : Db) (order : List RowId) : List (RowId × String × String) :=
  order.filterMap (fun id => (db.recipients.rows id).bind (fun r =>
    r.recipient_user_id.map (fun user_id => (id, user_id, r.recipient_email))))

/-- The queue rows of the recipients outside; the provider is only asked for when there are any. -/
def queueOutside (mail_id : RowId) (company_id : String) (now : Time) (db : Db) : Except Error Db :=
  let outside := db.recipients.select (fun _ r =>
    decide (r.message_id = mail_id) && r.recipient_user_id.isNone)
  if outside = ∅ then .ok db
  else do
    let provider ← resolve db.settings company_id
    let delivery := newDelivery provider company_id .direct none none now
    return { db with queue := db.queue.insertAll (outside.image (fun id => (mail_id, id))) delivery }

def Mail.occasion (m : Mail) (mail_id : RowId) (call : Nat) (now : Time) : Occasion where
  company_id := m.company_id
  mail_id := mail_id
  sender_email := m.sender_email
  subject := m.subject
  body := m.body_text
  has_attachment := decide (m.attachment_count ≠ 0)
  is_auto_generated := m.is_auto_generated
  call := call
  now := now

/-- `_dispatch_scheduled_mail_row`; `order` is that of the rows of the users. -/
def _dispatch_scheduled_mail_row (codec : Codec) (db : Db) (mail_id : RowId) (m : Mail)
    (order : List RowId) (call : Nat) (now : Time) : Except Error Db := do
  let db := db.updateMail mail_id (fun m =>
    { m with status := .sent, sent_at := some now, updated_at := now })
  let db ← (fetchRows db order).foldlM (dispatchRecipient codec (m.occasion mail_id call now)) db
  queueOutside mail_id m.company_id now db

/-! ## Changing a scheduled mail -/

def _fetch_owned_scheduled_mail (db : Db) (actor : AuthUserSummary) (mail_id : RowId) :
    Except Error Mail :=
  found ((db.mails.rows mail_id).filter (fun m => actor.within m && actor.sends m &&
    decide (m.status = .scheduled) && m.sender_deleted_at.isNone))
    (.not_found "예약 메일을 찾을 수 없습니다.")

/-- DELETE of the recipients of a mail, with the rows that go with them. -/
def Db.deleteRecipients (db : Db) (mail_id : RowId) : Db :=
  let gone := fun id => (db.recipients.rows id).any (fun r => decide (r.message_id = mail_id))
  { db with
    recipients := db.recipients.filter (fun _ r => decide (r.message_id ≠ mail_id))
    recipient_tags := db.recipient_tags.filter (fun key _ => !gone key.1)
    queue := db.queue.filter (fun key _ => !gone key.2)
    forwards := db.forwards.filter (fun key row => !gone key.1 && !gone row.forwarded_recipient_id)
    absences := db.absences.filter (fun _ row => !gone row.origin_recipient_id) }

/-- The attachments that an edit leaves: the ones to keep, without the inline ones that the
body does not name. -/
def retains (payload : MailScheduledUpdateRequest) (id : RowId) (row : Attachment) : Bool :=
  payload.retainedAttachmentIds.all (fun ids => decide (id ∈ ids)) &&
    (!row.inline || decide (id ∈ payload.referenced))

/-- The transaction of `update_scheduled_mail`. -/
def update_scheduled_mail (db : Db) (actor : AuthUserSummary) (mail_id : RowId)
    (payload : MailScheduledUpdateRequest) (call : Nat) (now : Time) : Except Error Db := do
  require (payload.recipient_pairs ≠ []) (.value_error "수신자를 1명 이상 입력해야 합니다.")
  let _ ← _fetch_owned_scheduled_mail db actor mail_id
  let existing := db.attachments.select (fun _ row => decide (row.message_id = mail_id))
  require (∀ id ∈ payload.retainedAttachmentIds.getD [], id ∈ existing)
    (.value_error "유지할 첨부 파일을 찾을 수 없습니다.")
  let db := { db with
    attachments := db.attachments.filter (fun id row =>
      decide (row.message_id ≠ mail_id) || retains payload id row) }
  let active_users := db.settings.active_users actor.companyId
  let db := db.deleteRecipients mail_id
  let db := payload.recipient_pairs.foldl (fun db pair =>
    let place := match active_users pair.2 with
      | some user_id => Place.internal user_id
      | none => .external
    db.insertRecipient (.recipient call pair.2)
      (newRecipient mail_id place pair.2 pair.1 .direct none)) db
  let db := db.insertAttachments call (attachmentRows mail_id payload.attachments)
  let count := (db.attachments.select (fun _ row => decide (row.message_id = mail_id))).card
  return db.updateMail mail_id (fun m =>
    { m with
      subject := Text.strip payload.subject
      body_text := payload.bodyText
      scheduled_at := payload.scheduledAt
      attachment_count := count
      updated_at := now })

def cancel_scheduled_mail (db : Db) (actor : AuthUserSummary) (mail_id : RowId) (now : Time) :
    Except Error Db := do
  let _ ← _fetch_owned_scheduled_mail db actor mail_id
  return db.updateMail mail_id (fun m =>
    { m with status := .draft, scheduled_at := none, updated_at := now })

/-- The transaction of `send_scheduled_mail_now`, before its dispatch. -/
def send_scheduled_mail_now (db : Db) (actor : AuthUserSummary) (mail_id : RowId) (now : Time) :
    Except Error Db := do
  let _ ← _fetch_owned_scheduled_mail db actor mail_id
  return db.updateMail mail_id (fun m => { m with scheduled_at := some now, updated_at := now })

/-! ## Mail from outside -/

/-- An account at another provider, whose mail a user collects. -/
structure ExternalAccount where
  company_id : String
  user_id : String
  owner_email : String
  target_folder_id : Option String
  deriving DecidableEq, Repr

structure ParsedMail where
  sender_email : String
  subject : String
  body_text : String
  attachments : List Upload
  deriving DecidableEq, Repr

/-- `_store` of the worker, for a mail that was not imported before: the owner of the account
is the sender of the row and its recipient. -/
def _store (codec : Codec) (db : Db) (account : ExternalAccount) (parsed : ParsedMail) (call : Nat)
    (now : Time) : Except Error Db := do
  let mail_id := RowId.mail call
  let recipient_id := RowId.recipient call account.owner_email
  let o : Occasion :=
    { company_id := account.company_id
      mail_id := mail_id
      sender_email := parsed.sender_email
      subject := parsed.subject
      body := parsed.body_text
      has_attachment := decide (parsed.attachments ≠ [])
      is_auto_generated := false
      call := call
      now := now }
  let db := db.insertMail mail_id
    { company_id := account.company_id
      sender_user_id := some account.user_id
      sender_email := parsed.sender_email
      subject := parsed.subject
      body_text := parsed.body_text
      status := .sent
      sent_at := some now
      scheduled_at := none
      updated_at := now
      attachment_count := parsed.attachments.length
      source_message_id := none
      sender_copy_saved := false
      is_auto_generated := false
      sender_deleted_at := none
      sender_purged_at := none }
  let spam := _evaluate_recipient_spam codec o db.settings account.user_id
  let row := (newRecipient mail_id (.internal account.user_id) account.owner_email .to .direct
    (some now)).judged spam now
  let db := db.insertRecipient recipient_id { row with folder_id := account.target_folder_id }
  let db := db.insertAttachments call (attachmentRows mail_id parsed.attachments)
  if spam then return db
  applyRules codec o account.user_id recipient_id account.owner_email db

end moaworks.mail_messenger_service
