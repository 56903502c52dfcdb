-- The triggers of migration 068 that keep the number of active
-- administrators at three, in transactions that overlap.
import MoaWorks.Lib.Locks
import MoaWorks.Lib.Machine
import MoaWorks.Lib.Table

namespace moaworks.admin_active_limit

/-! ## The two tables -/

structure User where
  status : String
  user_type : String
  role_id : String
  deriving DecidableEq, Repr

/-- The strings of the JSON array `permissions`. -/
structure Role where
  permissions : List String
  deriving DecidableEq, Repr

def Role.privileged (role : Role) : Bool := decide ("admin:*" ∈ role.permissions)

/-- The rows of `users` and `roles`: all of them, or those that one transaction wrote. -/
structure Db where
  users : Table String User
  roles : Table String Role

namespace Db

def empty : Db := ⟨.empty, .empty⟩

/-- What a transaction sees: its own rows over the committed ones. -/
def overlay (db own : Db) : Db := ⟨db.users.overlay own.users, db.roles.overlay own.roles⟩

def put_user (db : Db) (id : String) (user : User) : Db := { db with users := db.users.set id user }

def put_role (db : Db) (id : String) (role : Role) : Db := { db with roles := db.roles.set id role }

/-- `EXISTS (SELECT 1 FROM roles WHERE id = role_id AND jsonb_exists(permissions, 'admin:*'))`. -/
def privileged (db : Db) (role_id : String) : Bool :=
  (db.roles.rows role_id).any Role.privileged

def is_active_admin (db : Db) (user : User) : Bool :=
  decide (user.status = "active") &&
    (decide (user.user_type = "admin") || db.privileged user.role_id)

/-- The active administrators. -/
def admins (db : Db) : Finset String := db.users.select (fun _ user => db.is_active_admin user)

end Db

/-! ## The questions of the triggers -/

/-- `old_is_active_admin`. An INSERT has no old row. -/
def old_is_active_admin (view : Db) (id : String) : Bool :=
  (view.users.rows id).any view.is_active_admin

/-- `active_admin_count` of `enforce_admin_active_user_limit`: without the user himself. -/
def active_admin_count (view : Db) (id : String) : Nat :=
  (view.users.select (fun other user => decide (other ≠ id) && view.is_active_admin user)).card

/-- `current_active_admin_count` of `enforce_admin_active_role_limit`. -/
def current_active_admin_count (view : Db) : Nat := view.admins.card

def newlyPrivileged (view : Db) (role_id : String) : Finset String :=
  view.users.select (fun _ user => decide (user.role_id = role_id) &&
    decide (user.status = "active") && decide (user.user_type ≠ "admin"))

def newly_privileged_user_count (view : Db) (role_id : String) : Nat :=
  (newlyPrivileged view role_id).card

/-! ## Transactions -/

/-- Where a transaction is between its statements. A trigger asks its
questions one after another, and others may commit between them. -/
inductive Phase
  | ready
  /-- OLD is no active administrator, and NEW has not been looked at. -/
  | checking (id : String) (new : User)
  /-- The user becomes one: the trigger waits for the advisory lock. -/
  | waiting (id : String) (new : User)
  /-- The role becomes privileged: the trigger waits for the advisory lock. -/
  | role_waiting (id : String) (new : Role)
  /-- It has counted the active administrators, but not yet the users of the role. -/
  | role_counting (id : String) (new : Role) (current : Nat)
  deriving DecidableEq, Repr

structure Tx where
  own : Db
  phase : Phase

/-- The committed rows, the open transactions, and the locks. `advisory` is
the holder of the advisory lock (1297043287, 3). -/
structure World where
  committed : Db
  txs : Table Nat Tx
  advisory : Option Nat
  user_locks : Locks String Nat
  role_locks : Locks String Nat

inductive Action
  | begin (t : Nat)
  /-- INSERT, or UPDATE OF status, user_type, role_id. -/
  | write_user (t : Nat) (id : String) (new : User)
  | check_new (t : Nat)
  | count (t : Nat)
  /-- UPDATE OF permissions. -/
  | write_role (t : Nat) (id : String) (new : Role)
  | count_newly (t : Nat)
  | commit (t : Nat)
  | abort (t : Nat)
  deriving DecidableEq, Repr

namespace World

def view (w : World) (tx : Tx) : Db := w.committed.overlay tx.own

def set (w : World) (t : Nat) (tx : Tx) : World := { w with txs := w.txs.set t tx }

/-- The end of a transaction: its locks are free. -/
def close (w : World) (t : Nat) : World where
  committed := w.committed
  txs := w.txs.erase t
  advisory := if w.advisory = some t then none else w.advisory
  user_locks := w.user_locks.release t
  role_locks := w.role_locks.release t

end World

def Tx.put_user (tx : Tx) (id : String) (new : User) : Tx := ⟨tx.own.put_user id new, .ready⟩

def Tx.put_role (tx : Tx) (id : String) (new : Role) : Tx := ⟨tx.own.put_role id new, .ready⟩

/-- The row is locked, and the trigger looks at OLD. When OLD is an active
administrator already, the row is written whatever NEW is. -/
def write_user (w : World) (t : Nat) (tx : Tx) (id : String) (new : User) : Option World :=
  if tx.phase = .ready ∧ w.user_locks.open_to t id = true then
    some { w.set t (if old_is_active_admin (w.view tx) id then tx.put_user id new
        else { tx with phase := .checking id new }) with
      user_locks := w.user_locks.take t id }
  else none

def check_new (w : World) (t : Nat) (tx : Tx) : Option World :=
  match tx.phase with
  | .checking id new =>
    some (w.set t (if (w.view tx).is_active_admin new then { tx with phase := .waiting id new }
      else tx.put_user id new))
  | _ => none

/-- Takes the advisory lock, and counts the active administrators under it. -/
def count (w : World) (t : Nat) (tx : Tx) : Option World :=
  if w.advisory = none ∨ w.advisory = some t then
    match tx.phase with
    | .waiting id new =>
      if 3 ≤ active_admin_count (w.view tx) id then some (w.close t)
      else some { w.set t (tx.put_user id new) with advisory := some t }
    | .role_waiting id new =>
      some { w.set t { tx with
          phase := .role_counting id new (current_active_admin_count (w.view tx)) } with
        advisory := some t }
    | _ => none
  else none

def write_role (w : World) (t : Nat) (tx : Tx) (id : String) (new : Role) : Option World :=
  if tx.phase = .ready ∧ w.role_locks.open_to t id = true then
    match (w.view tx).roles.rows id with
    | none => none
    | some old =>
      some { w.set t (if old.privileged = false ∧ new.privileged = true then
          { tx with phase := .role_waiting id new } else tx.put_role id new) with
        role_locks := w.role_locks.take t id }
  else none

def count_newly (w : World) (t : Nat) (tx : Tx) : Option World :=
  match tx.phase with
  | .role_counting id new current =>
    let newly := newly_privileged_user_count (w.view tx) id
    if 0 < newly ∧ 3 < current + newly then some (w.close t) else some (w.set t (tx.put_role id new))
  | _ => none

def commit (w : World) (t : Nat) (tx : Tx) : Option World :=
  if tx.phase = .ready then some { w.close t with committed := w.view tx } else none

def step (w : World) : Action → Option World
  | .begin t => if w.txs.rows t = none then some (w.set t ⟨.empty, .ready⟩) else none
  | .write_user t id new => (w.txs.rows t).bind (fun tx => write_user w t tx id new)
  | .check_new t => (w.txs.rows t).bind (check_new w t)
  | .count t => (w.txs.rows t).bind (count w t)
  | .write_role t id new => (w.txs.rows t).bind (fun tx => write_role w t tx id new)
  | .count_newly t => (w.txs.rows t).bind (count_newly w t)
  | .commit t => (w.txs.rows t).bind (commit w t)
  | .abort t => (w.txs.rows t).map (fun _ => w.close t)

/-- No transaction is open, and at most three administrators are active. -/
def Start (w : World) : Prop :=
  w.txs = .empty ∧ w.advisory = none ∧ w.committed.admins.card ≤ 3

def machine : Machine World Action := ⟨Start, step⟩

end moaworks.admin_active_limit
