-- The delegations of approvals: the deputies of an absent approver, written by
-- transactions that overlap statement by statement.
import MoaWorks.Actors
import MoaWorks.DailyQuota
import MoaWorks.Lib.Locks
import MoaWorks.Lib.Machine
import Mathlib

namespace moaworks.approval_delegations

open directory_store (AuthUserSummary Directory Error)

/-- A calendar date, in days since the epoch. -/
abbrev Date := Int

/-- `_seoul_today`, and `timezone('Asia/Seoul', CURRENT_TIMESTAMP)::date`. -/
def _seoul_today (now : Time) : Date := mail_daily_send_quota.usageDate now

/-- A row of `approval_delegations`. -/
structure Delegation where
  company_id : String
  owner_user_id : String
  delegate_user_id : String
  start_date : Date
  end_date : Date
  reason : String
  enabled : Bool
  version : Nat
  created_at : Time
  updated_at : Time
  deleted_at : Option Time
  deriving DecidableEq, Repr

abbrev Delegations := Table String Delegation

namespace Delegation

/-- `enabled = TRUE AND deleted_at IS NULL`. -/
def live (row : Delegation) : Bool := row.enabled && row.deleted_at.isNone

/-- The dates of a delegation, both ends included. -/
def dates (row : Delegation) : Set Date := Set.Icc row.start_date row.end_date

/-- The delegation is in force on a date. -/
def covers (row : Delegation) (date : Date) : Bool :=
  row.live && decide (row.start_date ≤ date) && decide (date ≤ row.end_date)

/-- The delegation belongs to the actor. -/
def owned (row : Delegation) (actor : AuthUserSummary) : Bool :=
  decide (row.company_id = actor.companyId) && decide (row.owner_user_id = actor.userId)

end Delegation

/-! ## The checks -/

def _validate_delegation_period (start_date end_date : Date) : Except Error Unit :=
  if start_date > end_date then .error (.delegation_period "종료일은 시작일보다 빠를 수 없습니다.")
  else .ok ()

def _validate_delegate (directory : Directory) (actor : AuthUserSummary)
    (delegate_user_id : String) : Except Error Unit :=
  if delegate_user_id = actor.userId then
    .error (.delegate_invalid "본인을 대결자로 지정할 수 없습니다.")
  else if directory.active_member actor.companyId delegate_user_id = false then
    .error (.delegate_invalid "같은 회사의 활성 사용자만 대결자로 지정할 수 있습니다.")
  else .ok ()

/-- The rows that the query of `_assert_no_delegation_overlap` finds. -/
def overlapping (delegations : Delegations) (actor : AuthUserSummary) (start_date end_date : Date)
    (exclude_id : Option String) : Finset String :=
  delegations.select (fun id row => row.owned actor && row.live &&
    !(decide (row.end_date < start_date) || decide (row.start_date > end_date)) &&
    decide (exclude_id ≠ some id))

def _assert_no_delegation_overlap (delegations : Delegations) (actor : AuthUserSummary)
    (start_date end_date : Date) (exclude_id : Option String) : Except Error Unit :=
  if (overlapping delegations actor start_date end_date exclude_id).Nonempty then
    .error (.delegation_overlap "활성 위임 기간이 기존 설정과 겹칩니다.")
  else .ok ()

/-- The row that `_fetch_owned_delegation` finds. -/
def owned_delegation (delegations : Delegations) (actor : AuthUserSummary) (delegation_id : String) :
    Option Delegation :=
  (delegations.rows delegation_id).filter (fun row => row.owned actor && row.deleted_at.isNone)

/-! ## Calls -/

/-- `ApprovalDelegationCreateRequest`. -/
structure Payload where
  delegateUserId : String
  startDate : Date
  endDate : Date
  reason : String
  enabled : Bool
  deriving DecidableEq, Repr

/-- A call, with the time of its `_now()` and the new id of a creation. -/
inductive Call
  | create (delegation_id : String) (payload : Payload) (now : Time)
  | update (delegation_id : String) (payload : Payload) (expectedVersion : Nat) (now : Time)
  | delete (delegation_id : String) (expected_version : Nat) (now : Time)
  deriving DecidableEq, Repr

namespace Call

/-- The delegation that the call writes. -/
def delegation_id : Call → String
  | create delegation_id _ _ | update delegation_id _ _ _ | delete delegation_id _ _ => delegation_id

/-- The version that an update or a deletion wants to replace. -/
def expected : Call → Option Nat
  | create _ _ _ => none
  | update _ _ expectedVersion _ => some expectedVersion
  | delete _ expected_version _ => some expected_version

def payload : Call → Option Payload
  | create _ payload _ | update _ payload _ _ => some payload
  | delete _ _ _ => none

/-- The row that an update or a deletion leaves out of the search for overlaps. -/
def exclude_id : Call → Option String
  | create _ _ _ => none
  | update delegation_id _ _ _ | delete delegation_id _ _ => some delegation_id

/-- The checks of a call before its transaction. -/
def refused : Call → Except Error Unit
  | create _ payload _ | update _ payload _ _ =>
    _validate_delegation_period payload.startDate payload.endDate
  | delete _ expected_version _ =>
    if expected_version < 1 then .error (.delegation_conflict "위임 설정 버전이 올바르지 않습니다.")
    else .ok ()

end Call

/-- The row that an INSERT writes. -/
def inserted (actor : AuthUserSummary) (payload : Payload) (now : Time) : Delegation where
  company_id := actor.companyId
  owner_user_id := actor.userId
  delegate_user_id := payload.delegateUserId
  start_date := payload.startDate
  end_date := payload.endDate
  reason := payload.reason
  enabled := payload.enabled
  version := 1
  created_at := now
  updated_at := now
  deleted_at := none

/-- What an UPDATE or a deletion makes of the locked row. -/
def replaced (current : Delegation) : Call → Delegation
  | .create _ _ _ => current
  | .update _ payload expectedVersion now =>
    { current with
      delegate_user_id := payload.delegateUserId
      start_date := payload.startDate
      end_date := payload.endDate
      reason := payload.reason
      enabled := payload.enabled
      version := expectedVersion + 1
      updated_at := now }
  | .delete _ expected_version now =>
    { current with deleted_at := some now, updated_at := now, version := expected_version + 1 }

/-! ## Sessions -/

/-- Where a session is in its call: after the statement that the name says. -/
inductive Session
  | idle (answer : Option (Except Error Delegation))
  | called (actor_id : String) (call : Call)
  | known (actor : AuthUserSummary) (call : Call)
  /-- `_lock_delegation_owner` has locked the row of the owner. -/
  | owning (actor : AuthUserSummary) (call : Call)
  /-- `SELECT … FOR UPDATE OF ad` has locked the delegation, in an update or a deletion. -/
  | fetched (actor : AuthUserSummary) (call : Call) (current : Delegation)
  | validated (actor : AuthUserSummary) (call : Call) (current : Option Delegation)
  /-- No other delegation overlaps, or the call enables none. -/
  | cleared (actor : AuthUserSummary) (call : Call) (current : Option Delegation)
  /-- After the INSERT or the UPDATE, before the commit. -/
  | written (actor : AuthUserSummary) (call : Call) (current : Option Delegation) (row : Delegation)

/-- The committed rows, the row locks and the sessions. -/
structure World where
  directory : Directory
  delegations : Delegations
  owners : Locks String Nat
  locks : Locks String Nat
  sessions : Nat → Session

namespace World

def put (w : World) (t : Nat) (session : Session) : World :=
  { w with sessions := fun u => if u = t then session else w.sessions u }

/-- The end of a transaction, by its commit or by a rollback. -/
def finish (w : World) (t : Nat) (answer : Option (Except Error Delegation)) : World :=
  { w.put t (.idle answer) with
    owners := w.owners.release t
    locks := w.locks.release t }

/-- Goes on when a check passes, or raises. -/
def check (w : World) (t : Nat) (result : Except Error Unit) (session : Session) : World :=
  match result with
  | .ok _ => w.put t session
  | .error error => w.finish t (some (.error error))

end World

/-- What session `t` does next. Waiting for a lock is a statement that cannot be done yet. -/
inductive Action
  | begin (t : Nat) (actor_id : String) (call : Call)
  | actor (t : Nat)
  | own (t : Nat)
  | fetch (t : Nat)
  | validate (t : Nat)
  | clear (t : Nat)
  | write (t : Nat)
  | commit (t : Nat)
  | abort (t : Nat)
  | administer (change : Directory.Change)
  deriving DecidableEq, Repr

def actor (w : World) (t : Nat) : Option World :=
  match w.sessions t with
  | .called actor_id call =>
    match w.directory._fetch_actor_summary actor_id with
    | .error error => some (w.finish t (some (.error error)))
    | .ok actor => some (w.put t (.known actor call))
  | _ => none

def _lock_delegation_owner (w : World) (t : Nat) : Option World :=
  match w.sessions t with
  | .known actor call =>
    if w.directory.companyOf actor.userId ≠ some actor.companyId then
      some (w.finish t (some (.error (.permission_error "부재/위임 설정에 접근할 수 없습니다."))))
    else if w.owners.open_to t actor.userId then
      some { w.put t (.owning actor call) with owners := w.owners.take t actor.userId }
    else none
  | _ => none

/-- `_fetch_owned_delegation` with its lock, and the check of the version. -/
def fetch (w : World) (t : Nat) : Option World :=
  match w.sessions t with
  | .owning actor call =>
    match call.expected with
    | none => none
    | some expected =>
      match owned_delegation w.delegations actor call.delegation_id with
      | none =>
        some (w.finish t (some (.error
          (.delegation_not_found "대상 부재/위임 설정을 찾을 수 없습니다."))))
      | some current =>
        if w.locks.open_to t call.delegation_id = false then none
        else if current.version ≠ expected then
          some (w.finish t (some (.error
            (.delegation_conflict "다른 화면에서 위임 설정이 변경되었습니다."))))
        else
          some { w.put t (.fetched actor call current) with
            locks := w.locks.take t call.delegation_id }
  | _ => none

/-- `_validate_delegate`. A deletion names no delegate. -/
def validate (w : World) (t : Nat) : Option World :=
  match w.sessions t with
  | .owning actor (.create delegation_id payload now) =>
    some (w.check t (_validate_delegate w.directory actor payload.delegateUserId)
      (.validated actor (.create delegation_id payload now) none))
  | .fetched actor (.update delegation_id payload expectedVersion now) current =>
    some (w.check t (_validate_delegate w.directory actor payload.delegateUserId)
      (.validated actor (.update delegation_id payload expectedVersion now) (some current)))
  | .fetched actor (.delete delegation_id expected_version now) current =>
    some (w.put t (.validated actor (.delete delegation_id expected_version now) (some current)))
  | _ => none

def clear (w : World) (t : Nat) : Option World :=
  match w.sessions t with
  | .validated actor call current =>
    match call.payload with
    | none => some (w.put t (.cleared actor call current))
    | some payload =>
      if payload.enabled then
        some (w.check t (_assert_no_delegation_overlap w.delegations actor payload.startDate
          payload.endDate call.exclude_id) (.cleared actor call current))
      else some (w.put t (.cleared actor call current))
  | _ => none

/-- The INSERT takes its new key, or it raises; the UPDATE has its row already. -/
def write (w : World) (t : Nat) : Option World :=
  match w.sessions t with
  | .cleared actor (.create delegation_id payload now) none =>
    if w.locks.open_to t delegation_id = false then none
    else if (w.delegations.rows delegation_id).isSome then
      some (w.finish t (some (.error (.unique_violation "approval_delegations_pkey"))))
    else
      some { w.put t (.written actor (.create delegation_id payload now) none
          (inserted actor payload now)) with
        locks := w.locks.take t delegation_id }
  | .cleared actor call (some current) =>
    some (w.put t (.written actor call (some current) (replaced current call)))
  | _ => none

def commit (w : World) (t : Nat) : Option World :=
  match w.sessions t with
  | .written _ call _ row =>
    some { w.finish t (some (.ok row)) with
      delegations := w.delegations.set call.delegation_id row }
  | _ => none

def step (w : World) : Action → Option World
  | .begin t actor_id call =>
    match w.sessions t with
    | .idle _ => some (w.check t call.refused (.called actor_id call))
    | _ => none
  | .actor t => actor w t
  | .own t => _lock_delegation_owner w t
  | .fetch t => fetch w t
  | .validate t => validate w t
  | .clear t => clear w t
  | .write t => write w t
  | .commit t => commit w t
  | .abort t => some (w.finish t none)
  | .administer change =>
    (w.directory.apply change).map (fun directory => { w with directory := directory })

/-- A start: nothing was delegated yet, and no call runs. -/
structure Start (w : World) : Prop where
  empty : w.delegations = Table.empty
  quiet : ∀ t, ∃ answer, w.sessions t = .idle answer

def machine : Machine World Action where
  Start := Start
  step := step

end moaworks.approval_delegations
