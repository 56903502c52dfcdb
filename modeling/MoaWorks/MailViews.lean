-- The lists of a user and what opens a mail: the mailboxes, the details of a mail, and the
-- operations that ask for a mail that the user received.
import MoaWorks.MailTables

namespace moaworks.mail_messenger_service

open mail_policies (Error)
open Raise (require found)

variable (db : Db) (actor : AuthUserSummary)

/-! ## The lists -/

/-- The query behind the lists of received mail; `context` is the condition of the list. -/
def _list_ui020_recipient (context : RowId → Recipient → Bool) : Finset RowId :=
  db.recipients.select (fun id r => actor.owns r && r.live &&
    db.joined r (fun m => actor.within m && decide (m.status = .sent)) && context id r)

/-- `list_inbox`, with `_list_inbox_query`. -/
def list_inbox : Finset RowId :=
  _list_ui020_recipient db actor (fun _ r => !r.is_spam && r.folder_id.isNone)

def list_folder_messages (folder_id : String) : Except Error (Finset RowId) := do
  _lock_owned_folder db actor folder_id
  return _list_ui020_recipient db actor (fun _ r => decide (r.folder_id = some folder_id) && !r.is_spam)

def list_tag_messages (tag_id : String) : Except Error (Finset RowId) := do
  _lock_owned_tag db actor tag_id
  return _list_ui020_recipient db actor (fun id _ => (db.recipient_tags.rows (id, tag_id)).isSome)

def list_spam : Finset RowId := _list_ui020_recipient db actor (fun _ r => r.is_spam)

/-- The received part of `list_trash`. -/
def list_trash_recipients : Finset RowId :=
  db.recipients.select (fun _ r => actor.owns r && r.trashed && db.joined r actor.within)

/-- The sent part of `list_trash`. -/
def list_trash_mails : Finset RowId :=
  db.mails.select (fun _ m => actor.within m && actor.sends m && m.trashed)

/-- `_list_sender_query`, for the mailboxes `sent`, `draft` and `scheduled`. -/
def _list_sender_query (status : MailStatus) : Finset RowId :=
  db.mails.select (fun _ m => actor.within m && actor.sends m && decide (m.status = status) &&
    m.live && (decide (status ≠ .sent) || m.sender_copy_saved))

def list_sent : Finset RowId := _list_sender_query db actor .sent

def list_drafts : Finset RowId := _list_sender_query db actor .draft

def list_scheduled : Finset RowId := _list_sender_query db actor .scheduled

/-- One of the rows is a row of the mail. -/
def Shows (rows : Finset RowId) (mail_id : RowId) : Prop :=
  ∃ id ∈ rows, (db.recipients.rows id).any (fun r => decide (r.message_id = mail_id)) = true

instance (rows : Finset RowId) (mail_id : RowId) : Decidable (Shows db rows mail_id) :=
  inferInstanceAs (Decidable (∃ id ∈ rows, _))

theorem shows_iff {rows : Finset RowId} {mail_id : RowId} :
    Shows db rows mail_id ↔
      ∃ id ∈ rows, ∃ r, db.recipients.rows id = some r ∧ r.message_id = mail_id := by
  simp [Shows, Option.any_eq_true]

/-! ## The details of a mail -/

inductive View
  | inbox | folder | tag | spam | trash | sent | draft | scheduled
  deriving DecidableEq, Repr

def sender_state (view : View) (m : Mail) : Bool :=
  match view with
  | .trash => m.trashed
  | _ => m.live

def recipient_state (view : View) (r : Recipient) : Bool :=
  match view with
  | .trash => r.trashed
  | .spam => r.live && r.is_spam
  | .inbox => r.live && !r.is_spam && r.folder_id.isNone
  | _ => r.live

/-- The condition of `_fetch_accessible_mail`, for a mail. -/
def opens (mail_id : RowId) (view : View) (m : Mail) : Bool :=
  actor.within m && (decide (view ≠ .scheduled) || decide (m.status = .scheduled)) &&
    ((actor.sends m && sender_state view m) ||
      decide (db.recipients.select (fun _ r => decide (r.message_id = mail_id) && actor.owns r &&
        recipient_state view r)).Nonempty)

def notFound : Error := .not_found "메일을 찾을 수 없습니다."

def _fetch_accessible_mail (mail_id : RowId) (view : View) : Except Error Mail := do
  let m ← found (db.mails.rows mail_id) notFound
  require (opens db actor mail_id view m = true) notFound
  return m

/-- `get_mail`, up to the recipients and the attachments that it adds. -/
def get_mail (mail_id : RowId) (view : View) : Except Error Mail :=
  _fetch_accessible_mail db actor mail_id view

/-! ## Operations on received mail -/

/-- `download_attachment`; `stored` are the files in the storage. -/
def download_attachment (stored : String → Bool) (mail_id attachment_id : RowId) :
    Except Error Attachment := do
  let _ ← _fetch_accessible_mail db actor mail_id .inbox
  let row ← found ((db.attachments.rows attachment_id).filter (fun row =>
    decide (row.message_id = mail_id) && !row.inline))
    (.permission_error "첨부 파일에 접근할 권한이 없습니다.")
  require (row.storage_key.any stored = true) (.value_error "첨부 파일을 찾을 수 없습니다.")
  return row

/-- The rows of the user for a mail. -/
def ownRows (mail_id : RowId) : Finset RowId :=
  db.recipients.select (fun _ r => decide (r.message_id = mail_id) && actor.owns r)

/-- An UPDATE of the rows of the user for a mail, which has to find one. -/
def updateOwn (mail_id : RowId) (f : Recipient → Recipient) (message : String) : Except Error Db := do
  let _ ← _fetch_accessible_mail db actor mail_id .inbox
  require (ownRows db actor mail_id).Nonempty (.permission_error message)
  let recipients := db.recipients.update
    (fun _ r => decide (r.message_id = mail_id) && actor.owns r) f
  return { db with recipients := recipients }

def mark_mail_read (mail_id : RowId) (now : Time) : Except Error Db :=
  updateOwn db actor mail_id (fun r => { r with is_read := true, read_at := some now })
    "받은 메일만 읽음 처리할 수 있습니다."

def toggle_mail_star (mail_id : RowId) : Except Error Db :=
  updateOwn db actor mail_id (fun r => { r with is_starred := !r.is_starred })
    "받은 메일만 중요 표시할 수 있습니다."

/-- `set_mail_category`, which asks for the company of the mail and for nothing else. -/
def set_mail_category (mail_id : RowId) (category : InboxCategory) : Except Error Db := do
  let rows := (ownRows db actor mail_id).filter (fun id =>
    (db.recipients.rows id).any (fun r => db.joined r actor.within))
  require rows.Nonempty (.permission_error "받은 메일의 분류만 변경할 수 있습니다.")
  let recipients := db.recipients.update (fun id _ => decide (id ∈ rows))
    (fun r => { r with inbox_category := some category })
  return { db with recipients := recipients }

/-- One turn of the loop of `_fetch_source_attachments`. -/
def sourceAttachment (source_mail_id attachment_id : RowId) : Except Error Attachment := do
  let row ← found ((db.attachments.rows attachment_id).filter (fun row =>
    decide (row.message_id = source_mail_id)))
    (.permission_error "전달할 원문 첨부에 접근할 권한이 없습니다.")
  require (row.storage_key.isSome = true) (.value_error "원문 첨부 파일 저장 상태가 올바르지 않습니다.")
  return row

/-- `_fetch_source_attachments`, which a forward calls with `include_inline`. -/
def _fetch_source_attachments (source_mail_id : RowId) (attachment_ids : List RowId) :
    Except Error (List Attachment) := do
  let _ ← _fetch_accessible_mail db actor source_mail_id .inbox
  attachment_ids.mapM (sourceAttachment db source_mail_id)

/-- The source check of `_save_mail`. -/
def checkSource (sourceMailId : Option RowId) (copiedAttachmentIds : List RowId) :
    Except Error (List Attachment) :=
  match sourceMailId with
  | none => .ok []
  | some source_mail_id =>
    if copiedAttachmentIds ≠ [] then
      _fetch_source_attachments db actor source_mail_id copiedAttachmentIds
    else do
      let _ ← _fetch_accessible_mail db actor source_mail_id .inbox
      return []

end moaworks.mail_messenger_service
