-- The mail service as a machine: users and workers, one call after another.
import MoaWorks.MailBulk
import MoaWorks.MailSending
import MoaWorks.Lib.Machine

namespace moaworks.mail_messenger_service

open directory_store (Status)
open mail_policies (Codec Error)
open Raise (require found)

/-! ## Calls -/

inductive Call
  | send_mail (payload : MailSendRequest)
  | save_draft (payload : MailSendRequest)
  | update_scheduled_mail (mail_id : RowId) (payload : MailScheduledUpdateRequest)
  | cancel_scheduled_mail (mail_id : RowId)
  | send_scheduled_mail_now (mail_id : RowId)
  | mark_mail_read (mail_id : RowId)
  | toggle_mail_star (mail_id : RowId)
  | set_mail_category (mail_id : RowId) (category : InboxCategory)
  | bulk_mail (first : FirstRow) (payload : MailBulkRequest)

/-- What happens to the service: a user calls it, a worker dispatches a mail or imports one,
or users and administration change their settings. -/
inductive Event
  | request (actor : AuthUserSummary) (call : Call)
  | dispatch (mail_id : RowId) (order : List RowId)
  | collect (account : ExternalAccount) (parsed : ParsedMail)
  | configure (settings : Settings)

structure World where
  db : Db
  /-- The number of the next call, which no id has yet. -/
  calls : Nat

/-- A user who can call the service. -/
def Settings.knows (settings : Settings) (actor : AuthUserSummary) : Bool :=
  (settings.users.rows actor.userId).any (fun u => decide (u.company_id = actor.companyId) &&
    decide (u.email = actor.userEmail) && decide (u.status = .active))

def Call.perform (codec : Codec) (db : Db) (actor : AuthUserSummary) (n : Nat) (now : Time) :
    Call → Except Error Db
  | send_mail payload => mail_messenger_service.send_mail codec db actor payload n now
  | save_draft payload => mail_messenger_service.save_draft codec db actor payload n now
  | update_scheduled_mail mail_id payload =>
    mail_messenger_service.update_scheduled_mail db actor mail_id payload n now
  | cancel_scheduled_mail mail_id =>
    mail_messenger_service.cancel_scheduled_mail db actor mail_id now
  | send_scheduled_mail_now mail_id =>
    mail_messenger_service.send_scheduled_mail_now db actor mail_id now
  | mark_mail_read mail_id => mail_messenger_service.mark_mail_read db actor mail_id now
  | toggle_mail_star mail_id => mail_messenger_service.toggle_mail_star db actor mail_id
  | set_mail_category mail_id category =>
    mail_messenger_service.set_mail_category db actor mail_id category
  | bulk_mail first payload => mail_messenger_service.bulk_mail db actor first payload now

/-- The dispatch of a mail that is due, with the rows of the users in some order. -/
def dispatchDue (codec : Codec) (db : Db) (mail_id : RowId) (order : List RowId) (n : Nat)
    (now : Time) : Except Error Db := do
  let m ← found ((db.mails.rows mail_id).filter (fun m => decide (m.status = .scheduled) &&
    m.scheduled_at.any (fun t => decide (t ≤ now)) && m.sender_deleted_at.isNone))
    (.not_found "예약 메일을 찾을 수 없습니다.")
  require (order.Nodup ∧ order.toFinset = internalRecipients db mail_id) .key_error
  _dispatch_scheduled_mail_row codec db mail_id m order n now

def Event.perform (codec : Codec) (w : World) (now : Time) : Event → Except Error Db
  | request actor call => do
    require (w.db.settings.knows actor = true) .key_error
    call.perform codec w.db actor w.calls now
  | dispatch mail_id order => dispatchDue codec w.db mail_id order w.calls now
  | collect account parsed => _store codec w.db account parsed w.calls now
  | configure settings => .ok { w.db with settings := settings }

/-! ## Runs -/

/-- No mail yet. -/
def Db.start (settings : Settings) : Db where
  settings := settings
  mails := .empty
  recipients := .empty
  recipient_tags := .empty
  attachments := .empty
  queue := .empty
  forwards := .empty
  absences := .empty

/-- A call that raises changes nothing. -/
def machine (codec : Codec) : Machine World (Time × Event) where
  Start := fun w => ∃ settings, w = ⟨Db.start settings, 0⟩
  step := fun w step => some ⟨savepoint w.db (step.2.perform codec w step.1), w.calls + 1⟩

/-- The states that the service can reach. -/
def Reachable (codec : Codec) (db : Db) : Prop := ∃ n, (machine codec).Reachable ⟨db, n⟩

end moaworks.mail_messenger_service
