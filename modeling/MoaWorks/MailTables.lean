-- The tables of the mail service: the mails, the rows of their recipients, and what stands
-- around them.
import MoaWorks.Lib.Table
import MoaWorks.MailPolicies
import MoaWorks.ProviderConfigs

namespace moaworks.mail_messenger_service

open directory_store (Status)
open mail_daily_send_quota (Date)
open mail_policies (AbsencePolicy ClassificationSettings ForwardSettings Kind SpamSettings)
open mail_provider_configs (ProviderRow)

structure AuthUserSummary where
  userId : String
  companyId : String
  userEmail : String
  deriving DecidableEq, Repr

/-! ## Rows -/

/-- The id of a row that the service draws; a call draws one for each thing that it writes. -/
inductive RowId
  | mail (call : Nat)
  | recipient (call : Nat) (email : String)
  | attachment (call index : Nat)
  | forwarded (call : Nat) (origin : RowId) (target_email : String)
  | response (call : Nat) (origin : RowId)
  | response_recipient (call : Nat) (origin : RowId)
  deriving DecidableEq, Repr

structure User where
  company_id : String
  email : String
  status : Status
  deriving DecidableEq, Repr

/-- A row of `mail_accounts`. -/
structure Account where
  id : String
  email : String
  status : Status
  deriving DecidableEq, Repr

inductive MailStatus
  | draft
  | scheduled
  | sent
  | cancelled
  deriving DecidableEq, Repr

/-- A row of `mail_messages`. -/
structure Mail where
  company_id : String
  sender_user_id : Option String
  sender_email : String
  subject : String
  body_text : String
  status : MailStatus
  sent_at : Option Time
  scheduled_at : Option Time
  updated_at : Time
  attachment_count : Nat
  source_message_id : Option RowId
  sender_copy_saved : Bool
  is_auto_generated : Bool
  sender_deleted_at : Option Time
  sender_purged_at : Option Time
  deriving DecidableEq, Repr

inductive InboxCategory
  | primary | promotions | social | updates | forums
  deriving DecidableEq, Repr

inductive DeliverySource
  | direct
  | auto_forward
  | out_of_office
  | external_smtp
  deriving DecidableEq, Repr

/-- A row of `mail_recipients`. -/
structure Recipient where
  message_id : RowId
  recipient_user_id : Option String
  recipient_email : String
  recipient_kind : Kind
  is_read : Bool
  read_at : Option Time
  is_starred : Bool
  received_at : Option Time
  inbox_category : Option InboxCategory
  folder_id : Option String
  is_spam : Bool
  spam_marked_at : Option Time
  deleted_at : Option Time
  purged_at : Option Time
  delivery_source : DeliverySource
  auto_forward_owner_user_id : Option String
  auto_forward_origin_recipient_id : Option RowId
  deriving DecidableEq, Repr

/-- A row of `mail_attachments`. -/
structure Attachment where
  message_id : RowId
  /-- `content_disposition` is `inline`. -/
  inline : Bool
  storage_key : Option String
  deriving DecidableEq, Repr

/-- Who has a folder or a tag. -/
structure Owner where
  company_id : String
  user_id : String
  deriving DecidableEq, Repr

inductive QueueStatus
  | queued
  | blocked
  deriving DecidableEq, Repr

inductive DeliveryKind
  | direct
  | auto_forward
  | out_of_office
  deriving DecidableEq, Repr

/-- A row of `mail_delivery_queue`. -/
structure Delivery where
  company_id : String
  provider_config_id : String
  status : QueueStatus
  next_attempt_at : Option Time
  delivery_kind : DeliveryKind
  sender_email_override : Option String
  reply_to_email_override : Option String
  created_at : Time
  deriving DecidableEq, Repr

inductive ForwardStatus
  | internal_delivered
  | queued
  | blocked
  deriving DecidableEq, Repr

/-- A row of `mail_auto_forward_deliveries`. -/
structure ForwardDelivery where
  company_id : String
  user_id : String
  origin_mail_id : RowId
  exception_id : Option String
  target_user_id : Option String
  forwarded_recipient_id : RowId
  delivery_queue_id : Option (RowId × RowId)
  status : ForwardStatus
  created_at : Time
  deriving DecidableEq, Repr

/-- A row of `mail_out_of_office_deliveries`. -/
structure AbsenceDelivery where
  origin_mail_id : RowId
  origin_recipient_id : RowId
  /-- `target_kind` is `internal`. -/
  internal : Bool
  response_mail_id : RowId
  response_recipient_id : RowId
  delivery_queue_id : Option (RowId × RowId)
  status : ForwardStatus
  created_at : Time
  deriving DecidableEq, Repr

/-! ## The tables -/

/-- What the users and the administration set; the settings of a user are under company
and user. -/
structure Settings where
  /-- The `domain` of each company. -/
  companies : Table String String
  users : Table String User
  /-- Under the user, which is unique. -/
  accounts : Table String Account
  providers : Table String ProviderRow
  /-- `save_sent_copy` of the users that have set it. -/
  save_sent_copy : Table String Bool
  spam : Table (String × String) SpamSettings
  classification : Table (String × String) ClassificationSettings
  forwarding : Table (String × String) ForwardSettings
  absence : Table (String × String) AbsencePolicy
  folders : Table String Owner
  tags : Table String Owner

/-- Under which a row of `mail_out_of_office_deliveries` is unique; a user has one policy. -/
structure AbsenceKey where
  company_id : String
  user_id : String
  period_start : Option Date
  period_end : Option Date
  normalized_sender_email : String
  deriving DecidableEq, Repr

/-- The queue is under mail and recipient and the forward deliveries are under origin and
target, which are unique. -/
structure Db where
  settings : Settings
  mails : Table RowId Mail
  recipients : Table RowId Recipient
  /-- Under recipient and tag. -/
  recipient_tags : Table (RowId × String) Time
  attachments : Table RowId Attachment
  queue : Table (RowId × RowId) Delivery
  forwards : Table (RowId × String) ForwardDelivery
  absences : Table AbsenceKey AbsenceDelivery

/-! ## What belongs to whom -/

/-- The row belongs to the user, by the id or by the address. -/
def AuthUserSummary.owns (actor : AuthUserSummary) (r : Recipient) : Bool :=
  decide (r.recipient_user_id = some actor.userId) ||
    decide (Text.lower r.recipient_email = Text.lower actor.userEmail)

/-- The mail is of the company of the user. -/
def AuthUserSummary.within (actor : AuthUserSummary) (m : Mail) : Bool :=
  decide (m.company_id = actor.companyId)

def AuthUserSummary.sends (actor : AuthUserSummary) (m : Mail) : Bool :=
  decide (m.sender_user_id = some actor.userId)

/-- `deleted_at IS NULL AND purged_at IS NULL`. -/
def Recipient.live (r : Recipient) : Bool := r.deleted_at.isNone && r.purged_at.isNone

def Recipient.trashed (r : Recipient) : Bool := r.deleted_at.isSome && r.purged_at.isNone

def Mail.live (m : Mail) : Bool := m.sender_deleted_at.isNone && m.sender_purged_at.isNone

def Mail.trashed (m : Mail) : Bool := m.sender_deleted_at.isSome && m.sender_purged_at.isNone

/-- The join of a recipient with its mail. -/
def Db.joined (db : Db) (r : Recipient) (p : Mail → Bool) : Bool :=
  (db.mails.rows r.message_id).any p

/-- `_lock_owned_folder`. -/
def _lock_owned_folder (db : Db) (actor : AuthUserSummary) (folder_id : String) :
    Except mail_policies.Error Unit :=
  Raise.require (db.settings.folders.rows folder_id = some ⟨actor.companyId, actor.userId⟩)
    (.not_found "메일함을 찾을 수 없습니다.")

/-- `_lock_owned_tag`. -/
def _lock_owned_tag (db : Db) (actor : AuthUserSummary) (tag_id : String) :
    Except mail_policies.Error Unit :=
  Raise.require (db.settings.tags.rows tag_id = some ⟨actor.companyId, actor.userId⟩)
    (.not_found "태그를 찾을 수 없습니다.")

end moaworks.mail_messenger_service
