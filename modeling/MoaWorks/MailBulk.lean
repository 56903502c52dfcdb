-- Bulk actions on the rows of a list. Two implementations share them: one writes the states
-- that a row can change, the other one files, tags, restores and purges.
import MoaWorks.MailViews

namespace moaworks.mail_messenger_service

open mail_policies (Error)
open Raise (require)

/-! ## The request -/

inductive Mailbox
  | inbox | sent | draft | folder | tag | spam | trash
  deriving DecidableEq, Repr

inductive Action
  | read | unread | star | unstar | move | delete | move_folder | add_tag | remove_tag | spam
  | not_spam | restore | purge
  deriving DecidableEq, Repr

inductive SourceMailbox
  | inbox | sent | draft
  deriving DecidableEq, Repr

structure MailTrashSelection where
  mailId : RowId
  sourceMailbox : SourceMailbox
  deriving DecidableEq, Repr

structure MailBulkRequest where
  mailIds : List RowId
  action : Action
  mailbox : Mailbox
  targetCategory : Option InboxCategory
  targetFolderId : Option String
  targetTagId : Option String
  trashViews : Option (List MailTrashSelection)
  /-- The work of `normalize_mail_ids`. -/
  distinct : mailIds.Nodup

/-- The table `allowed` of `validate_contract`. -/
def Mailbox.allowed : Mailbox → List Action
  | inbox => [.read, .unread, .star, .unstar, .move, .delete, .move_folder, .add_tag, .spam]
  | folder => [.read, .unread, .star, .unstar, .delete, .move_folder, .add_tag, .spam]
  | tag => [.read, .unread, .star, .unstar, .delete, .move_folder, .add_tag, .remove_tag, .spam]
  | spam => [.not_spam, .delete]
  | trash => [.restore, .purge]
  | sent => [.delete]
  | draft => [.delete]

def MailBulkRequest.validate_contract (payload : MailBulkRequest) : Except Error Unit := do
  require (payload.action ∈ payload.mailbox.allowed)
    (.value_error "해당 메일함에서 지원하지 않는 일괄 처리입니다.")
  require (payload.action = .move → payload.targetCategory.isSome)
    (.value_error "분류 이동 대상이 필요합니다.")
  require (payload.action ≠ .move → payload.targetCategory.isNone)
    (.value_error "분류 이동에서만 이동 대상을 지정할 수 있습니다.")
  require (payload.action = .move_folder → payload.targetFolderId.any (· ≠ "") = true)
    (.value_error "이동할 사용자 메일함이 필요합니다.")
  require (payload.action ≠ .move_folder → payload.targetFolderId.isNone)
    (.value_error "메일함 이동에서만 대상 메일함을 지정할 수 있습니다.")
  let tags := payload.action = .add_tag ∨ payload.action = .remove_tag
  require (tags → payload.targetTagId.any (· ≠ "") = true) (.value_error "대상 태그가 필요합니다.")
  require (¬tags → payload.targetTagId.isNone)
    (.value_error "태그 처리에서만 대상 태그를 지정할 수 있습니다.")
  if payload.mailbox = .trash then
    let views := payload.trashViews.getD []
    require (views ≠ [])
      (.value_error "휴지통 처리에는 sourceMailbox가 포함된 선택 정보가 필요합니다.")
    require views.Nodup (.value_error "같은 휴지통 view를 중복 선택할 수 없습니다.")
    require ((views.map MailTrashSelection.mailId).toFinset = payload.mailIds.toFinset)
      (.value_error "휴지통 선택과 메일 ID가 일치하지 않습니다.")
  else
    require payload.trashViews.isNone
      (.value_error "휴지통 처리에서만 sourceMailbox 선택 정보를 사용할 수 있습니다.")

/-! ## What an action writes -/

/-- `COALESCE(r.inbox_category, 'primary')`. -/
def Recipient.category (r : Recipient) : InboxCategory := r.inbox_category.getD .primary

/-- The UPDATE of `mail_recipients` behind an action, on one row. -/
def MailBulkRequest.write (payload : MailBulkRequest) (now : Time) (r : Recipient) : Recipient :=
  match payload.action with
  | .read => { r with is_read := true, read_at := some now }
  | .unread => { r with is_read := false, read_at := none }
  | .star => { r with is_starred := true }
  | .unstar => { r with is_starred := false }
  | .move => { r with inbox_category := payload.targetCategory }
  | .delete => { r with deleted_at := some now }
  | .move_folder => { r with folder_id := payload.targetFolderId }
  | .spam => { r with is_spam := true, spam_marked_at := some now }
  | .not_spam => { r with is_spam := false, spam_marked_at := none }
  | .restore => { r with deleted_at := none }
  | .purge => { r with purged_at := some now }
  | .add_tag => r
  | .remove_tag => r

/-- `after` equals `before` in the comparison of `bulk_mail`. -/
def MailBulkRequest.unchanged (payload : MailBulkRequest) (r : Recipient) : Bool :=
  match payload.action with
  | .read => r.is_read
  | .unread => !r.is_read
  | .star => r.is_starred
  | .unstar => !r.is_starred
  | .move => decide (some r.category = payload.targetCategory)
  | .delete => r.deleted_at.isSome
  | _ => true

/-! ## The states of a row -/

variable (db : Db) (actor : AuthUserSummary)

def forbidden : Error := .permission_error "요청한 모든 메일을 처리할 권한이 없습니다."

/-- The rows of the user for the selected mails. -/
def selectedRows (payload : MailBulkRequest) (p : Mail → Bool) (context : Recipient → Bool) :
    Finset RowId :=
  db.recipients.select (fun _ r => decide (r.message_id ∈ payload.mailIds) &&
    db.joined r (fun m => actor.within m && p m) && actor.owns r && context r)

/-- `bulk_mail` itself, for the received mail. -/
def bulkInbox (payload : MailBulkRequest) (now : Time) : Except Error Db := do
  let rows := selectedRows db actor payload (fun m => decide (m.status = .sent)) (fun _ => true)
  require (rows.card = payload.mailIds.length ∧
    ∀ mail_id ∈ payload.mailIds, Shows db rows mail_id) forbidden
  let recipients := db.recipients.update
    (fun id r => decide (id ∈ rows) && !payload.unchanged r) (payload.write now)
  return { db with recipients := recipients }

/-- `bulk_mail` itself, for the mailboxes of the sender. -/
def bulkSent (payload : MailBulkRequest) (now : Time) : Except Error Db := do
  let expected_status := if payload.mailbox = .draft then MailStatus.draft else .sent
  let rows := db.mails.select (fun id m => decide (id ∈ payload.mailIds) && actor.within m &&
    actor.sends m && decide (m.status = expected_status))
  require (rows.card = payload.mailIds.length ∧ ∀ mail_id ∈ payload.mailIds, mail_id ∈ rows)
    forbidden
  let mails := db.mails.update (fun id m => decide (id ∈ rows) && m.sender_deleted_at.isNone)
    (fun m => { m with sender_deleted_at := some now, updated_at := now })
  return { db with mails := mails }

/-! ## Folders, tags, spam and trash -/

/-- The `context` of a mailbox. -/
def Mailbox.context (mailbox : Mailbox) (r : Recipient) : Bool :=
  match mailbox with
  | .folder => r.live && !r.is_spam
  | .spam => r.live && r.is_spam
  | _ => r.live

/-- What `fetchone` returns of the rows that a query finds. -/
structure FirstRow where
  pick : Finset RowId → Option RowId
  mem : ∀ {rows id}, pick rows = some id → id ∈ rows
  some_of_nonempty : ∀ {rows}, rows.Nonempty → (pick rows).isSome = true

/-- The writes of an action on the rows of the user. -/
def writeRows (payload : MailBulkRequest) (rows : Finset RowId) (now : Time) : Db :=
  match payload.action with
  | .add_tag =>
    let tag_id := payload.targetTagId.getD ""
    { db with
      recipient_tags := db.recipient_tags.insertAll (rows.image (fun id => (id, tag_id))) now }
  | .remove_tag =>
    let tag_id := payload.targetTagId.getD ""
    { db with
      recipient_tags := db.recipient_tags.filter (fun key _ =>
        !(decide (key.1 ∈ rows) && decide (key.2 = tag_id))) }
  -- There is no branch for these, so a folder or a tag leaves the row as it is.
  | .read | .unread | .star | .unstar | .move => db
  | _ =>
    let recipients := db.recipients.update (fun id _ => decide (id ∈ rows)) (payload.write now)
    { db with recipients := recipients }

/-- The trashed rows of the user for a mail. -/
def trashedRows (mail_id : RowId) : Finset RowId :=
  db.recipients.select (fun _ r => decide (r.message_id = mail_id) &&
    db.joined r actor.within && actor.owns r && r.trashed)

def SourceMailbox.statuses : SourceMailbox → List MailStatus
  | draft => [.draft]
  | _ => [.sent, .scheduled]

/-- The mail of a selection whose trashed copy is that of the sender. -/
def trashedCopy (selection : MailTrashSelection) : Bool :=
  (db.mails.rows selection.mailId).any (fun m => actor.within m && actor.sends m &&
    decide (m.status ∈ selection.sourceMailbox.statuses) && m.trashed)

/-- The selection finds its row. -/
def locks (selection : MailTrashSelection) : Bool :=
  match selection.sourceMailbox with
  | .inbox => decide (trashedRows db actor selection.mailId).Nonempty
  | _ => trashedCopy db actor selection

/-- The rows of recipients that the selections lock, one each. -/
def trashRecipients (first : FirstRow) (views : List MailTrashSelection) : Finset RowId :=
  (views.filterMap (fun selection => if selection.sourceMailbox = .inbox then
    first.pick (trashedRows db actor selection.mailId) else none)).toFinset

/-- The mails whose copy of the sender the selections lock. -/
def trashMails (views : List MailTrashSelection) : Finset RowId :=
  ((views.filter (fun selection => decide (selection.sourceMailbox ≠ .inbox))).map
    MailTrashSelection.mailId).toFinset

def writeCopy (action : Action) (now : Time) (m : Mail) : Mail :=
  match action with
  | .restore => { m with sender_deleted_at := none, updated_at := now }
  | _ => { m with sender_purged_at := some now, updated_at := now }

def _bulk_mail_ui020 (first : FirstRow) (payload : MailBulkRequest) (now : Time) :
    Except Error Db := do
  payload.targetFolderId.forM (_lock_owned_folder db actor)
  payload.targetTagId.forM (_lock_owned_tag db actor)
  if payload.mailbox = .trash then
    let views := payload.trashViews.getD []
    require (∀ selection ∈ views, locks db actor selection = true)
      (.permission_error "요청한 모든 휴지통 view를 처리할 권한이 없습니다.")
    let copies := trashMails views
    let mails := db.mails.update (fun id _ => decide (id ∈ copies)) (writeCopy payload.action now)
    return { writeRows db payload (trashRecipients db actor first views) now with mails := mails }
  else
    let rows := selectedRows db actor payload (fun _ => true) payload.mailbox.context
    require (∀ mail_id ∈ payload.mailIds, Shows db rows mail_id) forbidden
    return writeRows db payload rows now

/-! ## The operation -/

/-- The request goes to `_bulk_mail_ui020`. -/
def MailBulkRequest.filed (payload : MailBulkRequest) : Prop :=
  payload.action ∈ [.move_folder, .add_tag, .remove_tag, .spam, .not_spam, .restore, .purge] ∨
    payload.mailbox ∈ [.folder, .tag, .spam, .trash]

instance (payload : MailBulkRequest) : Decidable payload.filed := inferInstanceAs (Decidable (_ ∨ _))

def bulk_mail (first : FirstRow) (payload : MailBulkRequest) (now : Time) : Except Error Db := do
  payload.validate_contract
  if payload.filed then _bulk_mail_ui020 db actor first payload now
  else if payload.mailbox = .inbox then bulkInbox db actor payload now
  else bulkSent db actor payload now

end moaworks.mail_messenger_service
