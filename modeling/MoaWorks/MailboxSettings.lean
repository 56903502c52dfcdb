-- The mailboxes of a user with their counts, and what empties one: the overview and the locking
-- queries each say anew which row stands in which mailbox.
import Mathlib.Order.Lattice.Nat
import Mathlib.Algebra.BigOperators.Group.Finset.Basic
import Mathlib.Data.String.Basic
import MoaWorks.Lib.Grouping
import MoaWorks.MailTables

namespace moaworks.mailbox_settings

open directory_store (Status)
open mail_messenger_service (AuthUserSummary Db Mail MailStatus Owner Recipient RowId)

/-! ## Mailboxes -/

/-- `MailboxScope`: a system mailbox, or a folder of the user. -/
inductive MailboxScope
  | inbox | sent | draft | scheduled | spam | trash
  | folder (folder_id : String)
  deriving DecidableEq, Repr

def MailboxScope.key : MailboxScope → String
  | .inbox => "system:inbox"
  | .sent => "system:sent"
  | .draft => "system:draft"
  | .scheduled => "system:scheduled"
  | .spam => "system:spam"
  | .trash => "system:trash"
  | .folder folder_id => "folder:" ++ folder_id

inductive ViewType
  | recipient | sender
  deriving DecidableEq, Repr

/-- `mailbox_type` and `folder_id` of a policy; only a folder's has a folder. -/
inductive PolicyType
  | inbox | sent | draft
  | folder (folder_id : String)
  deriving DecidableEq, Repr

/-- Under which a row of `user_mailbox_policies` is unique. -/
structure PolicyKey where
  company_id : String
  user_id : String
  mailbox : PolicyType
  deriving DecidableEq, Repr

structure Policy where
  retention_days : Option Nat
  version : Nat
  deriving DecidableEq, Repr

/-- The mail tables with the policies; `used_bytes` is the size of a mail, its texts and its
attachments. -/
structure Database where
  mail : Db
  policies : Table PolicyKey Policy
  used_bytes : RowId → Nat

/-! ## The overview -/

/-- A row of `raw_actor_views`, or of the views of the folders. -/
structure ActorView where
  mailbox : MailboxScope
  message_id : RowId
  view_type : ViewType
  is_read : Option Bool
  used_bytes : Nat
  deriving DecidableEq, Repr

def ActorView.view (v : ActorView) : RowId × ViewType := (v.message_id, v.view_type)

structure MailboxSettingsRow where
  mailbox : MailboxScope
  retentionDays : Option Nat
  retentionEditable : Bool
  unreadCount : Option Nat
  totalCount : Nat
  usedBytes : Nat
  version : Nat
  deriving DecidableEq, Repr

variable (d : Database) (actor : AuthUserSummary)

/-- The CASE of a received mail. -/
def recipientMailbox (r : Recipient) : MailboxScope :=
  if r.deleted_at.isSome then .trash else if r.is_spam then .spam else .inbox

/-- `'system:' || m.status`, for the statuses that the overview asks for. -/
def statusMailbox : MailStatus → Option MailboxScope
  | .sent => some .sent
  | .draft => some .draft
  | .scheduled => some .scheduled
  | .cancelled => none

def senderMailbox (m : Mail) : Option MailboxScope :=
  if m.sender_deleted_at.isSome then some .trash else statusMailbox m.status

/-- `m.status <> 'sent' OR m.sender_copy_saved = TRUE`. -/
def saved (m : Mail) : Bool := decide (m.status ≠ .sent) || m.sender_copy_saved

/-- The join and the conditions that all queries over received mail share. -/
def received (r : Recipient) : Bool :=
  actor.owns r && d.mail.joined r (fun m => actor.within m && decide (m.status = .sent))

/-- The conditions that all queries over own mail share. -/
def written (m : Mail) : Bool := actor.within m && actor.sends m

def rawRecipientView (_id : RowId) (r : Recipient) : Option ActorView :=
  if received d actor r && r.purged_at.isNone &&
      (r.deleted_at.isSome || r.is_spam || r.folder_id.isNone) then
    some ⟨recipientMailbox r, r.message_id, .recipient, some r.is_read, d.used_bytes r.message_id⟩
  else none

def rawSenderView (id : RowId) (m : Mail) : Option ActorView :=
  if written actor m && m.sender_purged_at.isNone && saved m then
    (senderMailbox m).map (fun mailbox => ⟨mailbox, id, .sender, none, d.used_bytes id⟩)
  else none

def raw_actor_views : Multiset ActorView :=
  d.mail.recipients.collect (rawRecipientView d actor) + d.mail.mails.collect (rawSenderView d actor)

def folderView (_id : RowId) (r : Recipient) : Option ActorView :=
  if received d actor r && r.live && !r.is_spam then
    r.folder_id.map (fun folder_id => ⟨.folder folder_id, r.message_id, .recipient, some r.is_read,
      d.used_bytes r.message_id⟩)
  else none

def folder_actor_views : Multiset ActorView := d.mail.recipients.collect (folderView d actor)

/-- One mailbox of the overview: its views, grouped by mail and type. -/
def overviewRow (views : Multiset ActorView) (mailbox : MailboxScope) (policy : Option Policy)
    (editable counts_unread : Bool) (fixed_retention : Option Nat) : MailboxSettingsRow :=
  let own := views.filter (fun v => v.mailbox = mailbox)
  let groups := Grouping.groups own ActorView.view
  let grouped := fun g => own.filter (fun v => v.view = g)
  { mailbox := mailbox
    retentionDays := if editable then policy.bind Policy.retention_days else fixed_retention
    retentionEditable := editable
    unreadCount := if counts_unread then
        some (groups.filter (fun g => some false ∈ (grouped g).map ActorView.is_read)).card
      else none
    totalCount := groups.card
    usedBytes := groups.sum (fun g => ((grouped g).map ActorView.used_bytes).sup)
    version := (policy.map Policy.version).getD 1 }

/-- The policy of a mailbox; the trash, the spam and the scheduled mails have none. -/
def policyOf (mailbox : PolicyType) : Option Policy :=
  d.policies.rows ⟨actor.companyId, actor.userId, mailbox⟩

def _system_overview_sql : List MailboxSettingsRow :=
  let views := raw_actor_views d actor
  [overviewRow views .inbox (policyOf d actor .inbox) true true none,
    overviewRow views .sent (policyOf d actor .sent) true false none,
    overviewRow views .draft (policyOf d actor .draft) true false none,
    overviewRow views .scheduled none false false none,
    overviewRow views .spam none false true (some 30),
    overviewRow views .trash none false true (some 30)]

/-- The folders of the user, whatever their order. -/
def ownFolders : List String :=
  d.mail.settings.folders.orderedKeys.filter (fun folder_id =>
    decide (d.mail.settings.folders.rows folder_id = some ⟨actor.companyId, actor.userId⟩))

def _folder_overview_sql : List MailboxSettingsRow :=
  (ownFolders d actor).map (fun folder_id => overviewRow (folder_actor_views d actor)
    (.folder folder_id) (policyOf d actor (.folder folder_id)) true true none)

/-- `get_settings`, up to the tags, the storage and the backup jobs. -/
def get_settings : List MailboxSettingsRow :=
  _system_overview_sql d actor ++ _folder_overview_sql d actor

/-! ## Emptying a mailbox -/

inductive MailboxError
  | value_error (message : String)
  | permission_error (message : String)
  | count_conflict (current_count : Nat)
  deriving DecidableEq, Repr

structure MailMailboxEmptyRequest where
  expectedCount : Nat
  confirmPermanent : Bool
  deriving DecidableEq, Repr

structure LockedView where
  view_id : RowId
  view_type : ViewType
  message_id : RowId
  deriving DecidableEq, Repr

/-- The message and the type, which `_logical_view_count` counts. -/
def LockedView.view (v : LockedView) : RowId × ViewType := (v.message_id, v.view_type)

def _authorize_scope (scope : MailboxScope) : Except MailboxError Unit :=
  match scope with
  | .folder folder_id => Raise.require
      (d.mail.settings.folders.rows folder_id = some ⟨actor.companyId, actor.userId⟩)
      (.permission_error "메일함에 접근할 수 없습니다.")
  | _ => .ok ()

/-- SELECT ... FOR UPDATE OF mr. -/
def lockRecipients (predicate : Recipient → Bool) : Multiset LockedView :=
  d.mail.recipients.collect (fun id r =>
    if received d actor r && predicate r then some ⟨id, .recipient, r.message_id⟩ else none)

/-- SELECT ... FOR UPDATE OF m. -/
def lockMails (predicate : Mail → Bool) : Multiset LockedView :=
  d.mail.mails.collect (fun id m =>
    if written actor m && predicate m then some ⟨id, .sender, id⟩ else none)

def _lock_current_views (scope : MailboxScope) : Multiset LockedView :=
  match scope with
  | .trash => lockRecipients d actor Recipient.trashed +
      lockMails d actor (fun m => m.trashed && saved m)
  | .inbox => lockRecipients d actor (fun r => r.live && (r.folder_id.isNone && !r.is_spam))
  | .spam => lockRecipients d actor (fun r => r.live && r.is_spam)
  | .folder folder_id => lockRecipients d actor (fun r =>
      r.live && (decide (r.folder_id = some folder_id) && !r.is_spam))
  | .sent => lockMails d actor (fun m => decide (m.status = .sent) && m.sender_copy_saved && m.live)
  | .draft => lockMails d actor (fun m => decide (m.status = .draft) && m.live)
  | .scheduled => lockMails d actor (fun m => decide (m.status = .scheduled) && m.live)

def _logical_view_count (locked_views : Multiset LockedView) : Nat :=
  (Grouping.groups locked_views LockedView.view).card

/-- `recipient_ids` and `sender_ids`. -/
def lockedIds (locked_views : Multiset LockedView) (view_type : ViewType) : Multiset RowId :=
  (locked_views.filter (fun v => v.view_type = view_type)).map LockedView.view_id

def purgeRecipient (now : Time) (r : Recipient) : Recipient := { r with purged_at := some now }

def purgeMail (now : Time) (m : Mail) : Mail := { m with sender_purged_at := some now }

def trashRecipient (now : Time) (r : Recipient) : Recipient := { r with deleted_at := some now }

/-- A scheduled mail that is deleted is not sent. -/
def trashMail (now : Time) (scheduled : Bool) (m : Mail) : Mail :=
  { m with
    sender_deleted_at := some now
    status := if scheduled then .cancelled else m.status
    scheduled_at := if scheduled then none else m.scheduled_at }

/-- The two UPDATEs of `_apply_empty`; without a view of a type, nothing is updated. -/
def _apply_empty (scope : MailboxScope) (locked_views : Multiset LockedView) (now : Time) : Db :=
  let recipient_ids := lockedIds locked_views .recipient
  let sender_ids := lockedIds locked_views .sender
  match scope with
  | .trash =>
    { d.mail with
      recipients := d.mail.recipients.update
        (fun id r => decide (id ∈ recipient_ids) && r.purged_at.isNone) (purgeRecipient now)
      mails := d.mail.mails.update
        (fun id m => decide (id ∈ sender_ids) && m.sender_purged_at.isNone) (purgeMail now) }
  | scope =>
    { d.mail with
      recipients := d.mail.recipients.update
        (fun id r => decide (id ∈ recipient_ids) && r.live) (trashRecipient now)
      mails := d.mail.mails.update
        (fun id m => decide (id ∈ sender_ids) && m.live)
        (trashMail now (decide (scope = .scheduled))) }

/-- The tables afterwards, and `changedCount`. -/
def empty_mailbox (scope : MailboxScope) (payload : MailMailboxEmptyRequest) (now : Time) :
    Except MailboxError (Database × Nat) := do
  Raise.require (scope = .trash → payload.confirmPermanent = true)
    (.value_error "휴지통 비우기는 복구할 수 없음을 확인해야 합니다.")
  _authorize_scope d actor scope
  let locked_views := _lock_current_views d actor scope
  let current_count := _logical_view_count locked_views
  Raise.require (current_count = payload.expectedCount) (.count_conflict current_count)
  return ({ d with mail := _apply_empty d scope locked_views now }, current_count)

end moaworks.mailbox_settings
