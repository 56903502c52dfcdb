-- The calendars of the workspace: their owners, the subscriptions of colleagues and the events, and
-- the transactions that work on them, statement by statement.
import Mathlib.Order.Lattice.Nat
import Mathlib.Data.String.Basic
import MoaWorks.Lib.RowLocks
import MoaWorks.Lib.Table
import MoaWorks.Lib.Text
import MoaWorks.WorkspaceFiles

namespace moaworks.calendars

open workspace (AuthUserSummary Status)

/-! ## Rows -/

structure User where
  company_id : String
  active : Bool
  deriving DecidableEq, Repr

inductive Visibility
  | «public» | approval_required | «private»
  deriving DecidableEq, Repr

/-- A row of `user_calendars`. -/
structure Calendar where
  company_id : String
  owner_user_id : String
  name : String
  color : String
  sort_order : Nat
  is_default : Bool
  visibility : Visibility
  version : Nat
  status : Status
  created_at : Time
  deriving DecidableEq, Repr

inductive SubscriptionStatus
  | pending | active | rejected | cancelled
  deriving DecidableEq, Repr

/-- Who made a subscription active, and how visible the calendar was when that was committed. -/
structure Origin where
  actor : String
  visibility : Visibility
  deriving DecidableEq, Repr

/-- A row of `user_calendar_subscriptions`. `origin` is not a column: it remembers how the row last
became active. -/
structure Subscription where
  company_id : String
  calendar_id : String
  subscriber_user_id : String
  status : SubscriptionStatus
  version : Nat
  origin : Option Origin
  deriving DecidableEq, Repr

/-- Pending or active. -/
def Subscription.isOpen (sub : Subscription) : Bool :=
  decide (sub.status = .pending) || decide (sub.status = .active)

structure SchedulePayload where
  title : String
  startsAt : Time
  endsAt : Time
  description : String
  location : String
  attendeeUserIds : List String
  repeatType : String
  repeatUntil : Option Nat
  alertMinutes : List Nat
  timezone : String
  calendarId : Option String
  deriving DecidableEq, Repr

/-- A row of `user_schedule_events`, with its attendees. -/
structure ScheduleEvent where
  company_id : String
  owner_user_id : String
  calendar_id : String
  status : Status
  details : SchedulePayload
  deriving DecidableEq, Repr

structure Db where
  users : Table String User
  calendars : Table String Calendar
  subscriptions : Table String Subscription
  events : Table String ScheduleEvent

/-- The rows that are locked. -/
inductive Key
  | user (id : String)
  | calendar (id : String)
  | subscription (id : String)
  deriving DecidableEq, Repr

/-- A part of a transaction. -/
abbrev Statements (α : Type) := Tx Db Key α

/-- A transaction. Its commits need no names. -/
abbrev Transaction := Statements (Commit Db Unit)

def commit (write : Db → Option Db) : Transaction := pure ⟨(), write⟩

/-! ## Calendars of an owner -/

/-- An active calendar of the user. -/
def owned (user_id : String) (c : Calendar) : Bool :=
  decide (c.owner_user_id = user_id) && decide (c.status = .active)

def defaultOf (db : Db) (user_id : String) : Option (String × Calendar) :=
  ((db.calendars.orderedBy Calendar.created_at).filter (fun (_, c) =>
    owned user_id c && c.is_default)).head?

/-- `ORDER BY sort_order,created_at,id LIMIT 1`. -/
def firstOf (db : Db) (user : AuthUserSummary) : Option (String × Calendar) :=
  (((db.calendars.orderedBy Calendar.created_at).filter (fun (_, c) =>
    decide (c.company_id = user.companyId) && owned user.userId c)).insertionSort
      (fun p q => p.2.sort_order ≤ q.2.sort_order)).head?

/-- Another active calendar of the owner that a unique index does not allow beside the row. -/
def clash (id : String) (row : Calendar) (k : String) (c : Calendar) : Bool :=
  decide (k ≠ id) && owned row.owner_user_id c &&
  (decide (Text.lower c.name = Text.lower row.name) || (c.is_default && row.is_default))

def Db.insertCalendar (id : String) (row : Calendar) (db : Db) : Option Db :=
  if db.calendars.rows id = none ∧ db.calendars.select (clash id row) = ∅ then
    some { db with calendars := db.calendars.set id row }
  else none

def Db.updateCalendars (p : String → Calendar → Bool) (f : Calendar → Calendar) (db : Db) : Db :=
  { db with calendars := db.calendars.update p f }

def Db.updateSubscriptions (ids : List String) (f : Subscription → Subscription) (db : Db) : Db :=
  { db with subscriptions := db.subscriptions.update (fun k _ => decide (k ∈ ids)) f }

def _lock_calendar_owner (user : AuthUserSummary) : Statements Unit := do
  let row ← Tx.selectForUpdate (.user user.userId) (fun db => db.users.rows user.userId)
  let row ← Tx.found row
  Tx.require (row.company_id = user.companyId ∧ row.active = true)

/-- The default calendar that `_ensure_default_calendar` inserts. -/
def firstCalendar (user : AuthUserSummary) (now : Time) : Calendar :=
  ⟨user.companyId, user.userId, "내 일정", "#0f766e", 0, true, .private, 0, .active, now⟩

def madeDefault (c : Calendar) : Calendar := { c with is_default := true, version := c.version + 1 }

/-- The default calendar, and what has been written to make it. -/
structure Ensured where
  id : String
  written : Db → Option Db

def insertDefault (user : AuthUserSummary) (calendar_id : String) (now : Time) :
    Statements Ensured := do
  let insert := Db.insertCalendar calendar_id (firstCalendar user now)
  let created ← Tx.select insert
  match created with
  | some _ => pure ⟨calendar_id, insert⟩
  -- ON CONFLICT DO NOTHING
  | none =>
    let repaired ← Tx.select (fun db => defaultOf db user.userId)
    let (id, _) ← Tx.found repaired
    pure ⟨id, some⟩

def _ensure_default_calendar (user : AuthUserSummary) (calendar_id : String) (now : Time) :
    Statements Ensured := do
  _lock_calendar_owner user
  let default ← Tx.select (fun db => defaultOf db user.userId)
  match default with
  | some (id, _) => pure ⟨id, some⟩
  | none =>
    let existing ← Tx.select (fun db => firstOf db user)
    match existing with
    | none => insertDefault user calendar_id now
    | some (id, _) =>
      let row ← Tx.selectForUpdate (.calendar id) (fun db => db.calendars.rows id)
      let row ← Tx.found row
      Tx.require (owned user.userId row = true)
      pure ⟨id, fun db => some (db.updateCalendars (fun k _ => decide (k = id)) madeDefault)⟩

/-- The part of `list_calendars` that writes. -/
def list_calendars (user : AuthUserSummary) (calendar_id : String) (now : Time) : Transaction := do
  let ensured ← _ensure_default_calendar user calendar_id now
  commit ensured.written

def create_calendar (user : AuthUserSummary) (item_id name color : String) (now : Time) :
    Transaction := do
  _lock_calendar_owner user
  let conflicts ← Tx.select (fun db => db.calendars.select (fun _ c => owned user.userId c &&
    decide (Text.lower c.name = Text.lower name)))
  Tx.require (conflicts = ∅)
  let next_order ← Tx.select (fun db => (db.calendars.select (fun _ c => owned user.userId c)).sup
    (fun k => ((db.calendars.rows k).map Calendar.sort_order).getD 0 + 1))
  let has_default ← Tx.select (fun db => decide (db.calendars.select (fun _ c =>
    owned user.userId c && c.is_default)).Nonempty)
  commit (Db.insertCalendar item_id ⟨user.companyId, user.userId, name, color, next_order,
    !has_default, .private, 0, .active, now⟩)

/-! ## Subscriptions of a calendar -/

def subscription_status_for_visibility : Visibility → Option SubscriptionStatus
  | .public => some .active
  | .approval_required => some .pending
  | .private => none

inductive SubscriptionAction
  | cancel_open | activate_pending | none
  deriving DecidableEq, Repr

def subscription_action_for_visibility_change (previous current : Visibility) :
    SubscriptionAction :=
  if current = .private ∧ previous ≠ .private then .cancel_open
  else if previous = .approval_required ∧ current = .public then .activate_pending
  else .none

/-- The subscriptions of a calendar that a status test takes. -/
def subscriptionsOf (db : Db) (user : AuthUserSummary) (calendar_id : String)
    (p : Subscription → Bool) : List String :=
  db.subscriptions.orderedKeys.filter (fun id => (db.subscriptions.rows id).any (fun sub =>
    decide (sub.calendar_id = calendar_id) && decide (sub.company_id = user.companyId) && p sub))

/-- `SELECT … FROM user_calendar_subscriptions WHERE … FOR UPDATE`. -/
def lockSubscriptions (user : AuthUserSummary) (calendar_id : String) (p : Subscription → Bool) :
    Statements (List String) := do
  let ids ← Tx.select (fun db => subscriptionsOf db user calendar_id p)
  Tx.lockEach Key.subscription (fun db id => (db.subscriptions.rows id).any p) ids

def isPending (sub : Subscription) : Bool := decide (sub.status = .pending)

def activated (actor : String) (visibility : Visibility) (sub : Subscription) : Subscription :=
  { sub with status := .active, version := sub.version + 1, origin := some ⟨actor, visibility⟩ }

def cancelled (sub : Subscription) : Subscription :=
  { sub with status := .cancelled, version := sub.version + 1 }

structure CalendarUpdatePayload where
  name : Option String
  color : Option String
  visibility : Option Visibility
  isDefault : Option Bool
  expectedVersion : Nat
  deriving DecidableEq, Repr

/-- The row that `update_calendar` writes. -/
def updatedCalendar (payload : CalendarUpdatePayload) (c : Calendar) : Calendar :=
  { c with
    name := payload.name.getD c.name
    color := payload.color.getD c.color
    visibility := payload.visibility.getD c.visibility
    is_default := payload.isDefault.getD c.is_default
    version := c.version + 1 }

/-- The two UPDATEs of calendars: another default loses its mark first. -/
def writeCalendar (calendar_id : String) (payload : CalendarUpdatePayload) (current : Calendar)
    (db : Db) : Option Db :=
  let unmarked := if payload.isDefault = some true ∧ current.is_default = false then
      db.updateCalendars (fun _ c => owned current.owner_user_id c && c.is_default)
        (fun c => { c with is_default := false, version := c.version + 1 })
    else db
  if unmarked.calendars.select (clash calendar_id (updatedCalendar payload current)) = ∅ then
    some (unmarked.updateCalendars (fun k _ => decide (k = calendar_id)) (updatedCalendar payload))
  else none

/-- What `update_calendar` does with the subscriptions. -/
def updateSubscribers (user : AuthUserSummary) (calendar_id : String) (visibility : Visibility) :
    SubscriptionAction → Statements (Db → Db)
  | .activate_pending => do
    let ids ← lockSubscriptions user calendar_id isPending
    pure (Db.updateSubscriptions ids (activated user.userId visibility))
  | .cancel_open => do
    let ids ← lockSubscriptions user calendar_id Subscription.isOpen
    pure (Db.updateSubscriptions ids cancelled)
  | .none => pure id

def update_calendar (user : AuthUserSummary) (calendar_id : String)
    (payload : CalendarUpdatePayload) : Transaction := do
  _lock_calendar_owner user
  let row ← Tx.selectForUpdate (.calendar calendar_id) (fun db => db.calendars.rows calendar_id)
  let current ← Tx.found row
  Tx.require (current.company_id = user.companyId ∧ owned user.userId current = true)
  Tx.require (current.version = payload.expectedVersion)
  Tx.require (¬(payload.isDefault = some false ∧ current.is_default = true))
  let updated := updatedCalendar payload current
  let conflicts ← Tx.select (fun db => db.calendars.select (fun k c => decide (k ≠ calendar_id) &&
    owned user.userId c && decide (Text.lower c.name = Text.lower updated.name)))
  Tx.require (conflicts = ∅)
  let subscribers ← updateSubscribers user calendar_id updated.visibility
    (subscription_action_for_visibility_change current.visibility updated.visibility)
  commit (fun db => (writeCalendar calendar_id payload current db).map subscribers)

structure CalendarOrderItem where
  calendarId : String
  expectedVersion : Nat
  deriving DecidableEq, Repr

def validate_order_snapshot (current : List (String × Nat)) (requested : List CalendarOrderItem) :
    Option (List String) :=
  let requested_ids := requested.map CalendarOrderItem.calendarId
  if ¬ requested_ids.Nodup ∨ requested_ids.toFinset ≠ (current.map Prod.fst).toFinset then none
  else if requested.any (fun item =>
    current.lookup item.calendarId != some item.expectedVersion) then none
  else some requested_ids

/-- `UPDATE user_calendars SET sort_order=…` for each calendar, in the order of the list. -/
def reordered (ids : List String) (db : Db) : Db :=
  let write := fun (t : Table String Calendar) (entry : String × Nat) =>
    t.update (fun k _ => decide (k = entry.1))
      (fun c => { c with sort_order := entry.2, version := c.version + 1 })
  { db with calendars := ids.zipIdx.foldl write db.calendars }

def reorder_calendars (user : AuthUserSummary) (items : List CalendarOrderItem) : Transaction := do
  _lock_calendar_owner user
  let rows ← Tx.select (fun db => db.calendars.orderedKeys.filter (fun id =>
    (db.calendars.rows id).any (fun c =>
      decide (c.company_id = user.companyId) && owned user.userId c)))
  let ids ← Tx.lockEach Key.calendar
    (fun db id => (db.calendars.rows id).any (owned user.userId)) rows
  let current ← Tx.select (fun db => ids.filterMap (fun id =>
    (db.calendars.rows id).map (fun c => (id, c.version))))
  let ordered_ids ← Tx.found (validate_order_snapshot current items)
  commit (fun db => some (reordered ordered_ids db))

def Db.updateEvents (p : String → ScheduleEvent → Bool) (f : ScheduleEvent → ScheduleEvent)
    (db : Db) : Db :=
  { db with events := db.events.update p f }

def deletedEvent (e : ScheduleEvent) : ScheduleEvent := { e with status := .deleted }

def deletedCalendar (c : Calendar) : Calendar :=
  { c with status := .deleted, is_default := false, version := c.version + 1 }

/-- The UPDATEs of `delete_calendar`. -/
def removeCalendar (calendar_id : String) (ids : List String) (db : Db) : Db :=
  ((db.updateCalendars (fun k _ => decide (k = calendar_id)) deletedCalendar).updateEvents
    (fun _ e => decide (e.calendar_id = calendar_id) && decide (e.status = .active))
    deletedEvent).updateSubscriptions ids cancelled

def delete_calendar (user : AuthUserSummary) (calendar_id : String) (expectedVersion : Nat) :
    Transaction := do
  _lock_calendar_owner user
  let row ← Tx.selectForUpdate (.calendar calendar_id) (fun db => db.calendars.rows calendar_id)
  let current ← Tx.found row
  Tx.require (current.company_id = user.companyId ∧ owned user.userId current = true)
  Tx.require (current.version = expectedVersion)
  Tx.require (current.is_default = false)
  let ids ← lockSubscriptions user calendar_id Subscription.isOpen
  commit (fun db => some (removeCalendar calendar_id ids db))

/-- The subscription of a user to a calendar. -/
def subscriptionFor (db : Db) (calendar_id user_id : String) : Option String :=
  db.subscriptions.orderedKeys.find? (fun id => (db.subscriptions.rows id).any (fun sub =>
    decide (sub.calendar_id = calendar_id) && decide (sub.subscriber_user_id = user_id)))

/-- A calendar that the user can subscribe to. -/
def offered (user : AuthUserSummary) (c : Calendar) : Bool :=
  decide (c.company_id = user.companyId) && decide (c.owner_user_id ≠ user.userId) &&
  decide (c.status = .active) && decide (c.visibility ≠ .private)

/-- What is remembered of a subscription that a request makes active. -/
def originOf (actor : String) (visibility : Visibility) (status : SubscriptionStatus)
    (origin : Option Origin) : Option Origin :=
  if status = .active then some ⟨actor, visibility⟩ else origin

/-- A new request for a subscription that was ended before. -/
def requested (actor : String) (visibility : Visibility) (status : SubscriptionStatus)
    (sub : Subscription) : Subscription :=
  { sub with
    status := status
    version := sub.version + 1
    origin := originOf actor visibility status sub.origin }

def Db.insertSubscription (id : String) (sub : Subscription) (db : Db) : Option Db :=
  if db.subscriptions.rows id = none ∧
      subscriptionFor db sub.calendar_id sub.subscriber_user_id = none then
    some { db with subscriptions := db.subscriptions.set id sub }
  else none

/-- The SELECT that locks the calendar and the row of its owner, and finds them as they are then. -/
def lockOffered (user : AuthUserSummary) (calendarId : String) : Statements Calendar := do
  let seen ← Tx.selectForUpdate (.calendar calendarId) (fun db => db.calendars.rows calendarId)
  let seen ← Tx.found seen
  let rows ← Tx.selectForUpdate (.user seen.owner_user_id) (fun db =>
    (db.calendars.rows calendarId, db.users.rows seen.owner_user_id))
  let target ← Tx.found rows.1
  let owner ← Tx.found rows.2
  Tx.require (target.owner_user_id = seen.owner_user_id ∧ offered user target = true ∧
    owner.active = true)
  pure target

def create_calendar_subscription (user : AuthUserSummary) (subscription_id calendarId : String) :
    Transaction := do
  let target ← lockOffered user calendarId
  let status ← Tx.found (subscription_status_for_visibility target.visibility)
  let existing ← Tx.select (fun db => subscriptionFor db calendarId user.userId)
  match existing with
  | none => commit (Db.insertSubscription subscription_id
      ⟨user.companyId, calendarId, user.userId, status, 0,
        originOf user.userId target.visibility status none⟩)
  | some id =>
    let row ← Tx.selectForUpdate (.subscription id) (fun db => db.subscriptions.rows id)
    let row ← Tx.found row
    Tx.require (row.isOpen = false)
    commit (fun db => some (db.updateSubscriptions [id]
      (requested user.userId target.visibility status)))

def decided (actor : String) (visibility : Visibility) (accepted : Bool) (sub : Subscription) :
    Subscription :=
  if accepted then activated actor visibility sub
  else { sub with status := .rejected, version := sub.version + 1 }

def decide_calendar_subscription (user : AuthUserSummary) (subscription_id : String)
    (accepted : Bool) : Transaction := do
  _lock_calendar_owner user
  let seen ← Tx.select (fun db => (db.subscriptions.rows subscription_id).filter (fun sub =>
    decide (sub.company_id = user.companyId)))
  let seen ← Tx.found seen
  let row ← Tx.selectForUpdate (.calendar seen.calendar_id) (fun db =>
    db.calendars.rows seen.calendar_id)
  let calendar ← Tx.found row
  Tx.require (calendar.company_id = user.companyId ∧ owned user.userId calendar = true)
  let row ← Tx.selectForUpdate (.subscription subscription_id) (fun db =>
    db.subscriptions.rows subscription_id)
  let current ← Tx.found row
  Tx.require (current.calendar_id = seen.calendar_id ∧ current.company_id = user.companyId)
  Tx.require (current.status = .pending)
  commit (fun db => some (db.updateSubscriptions [subscription_id]
    (decided user.userId calendar.visibility accepted)))

def cancel_calendar_subscription (user : AuthUserSummary) (subscription_id : String) :
    Transaction := do
  let row ← Tx.selectForUpdate (.subscription subscription_id) (fun db =>
    db.subscriptions.rows subscription_id)
  let row ← Tx.found row
  Tx.require (row.company_id = user.companyId ∧ row.subscriber_user_id = user.userId ∧
    row.isOpen = true)
  commit (fun db => some (db.updateSubscriptions [subscription_id] cancelled))

/-! ## Events -/

/-- `_validate_schedule_attendees`: colleagues that are active, and not the owner. -/
def attendeesAllowed (db : Db) (user : AuthUserSummary) (ids : List String) : Bool :=
  decide (user.userId ∉ ids) && ids.all (fun id => (db.users.rows id).any (fun u =>
    decide (u.company_id = user.companyId) && u.active)) && decide ids.Nodup

/-- What the transaction sees of the calendars: its own writes too. -/
def _resolve_owned_calendar (user : AuthUserSummary) (calendar_id : Option String)
    (new_id : String) (now : Time) : Statements Ensured := do
  let default ← _ensure_default_calendar user new_id now
  match calendar_id.filter (fun id => id != "") with
  | none => pure default
  | some id =>
    let row ← Tx.select (fun db => ((default.written db).getD db).calendars.rows id)
    let row ← Tx.found row
    Tx.require (row.company_id = user.companyId ∧ owned user.userId row = true)
    pure ⟨id, default.written⟩

def Db.insertEvent (id : String) (e : ScheduleEvent) (db : Db) : Option Db :=
  if db.events.rows id = none then some { db with events := db.events.set id e } else none

def create_schedule (user : AuthUserSummary) (item_id : String) (payload : SchedulePayload)
    (new_id : String) (now : Time) : Transaction := do
  let allowed ← Tx.select (fun db => attendeesAllowed db user payload.attendeeUserIds)
  Tx.require (allowed = true)
  let calendar ← _resolve_owned_calendar user payload.calendarId new_id now
  commit (fun db => (calendar.written db).bind (Db.insertEvent item_id
    ⟨user.companyId, user.userId, calendar.id, .active, payload⟩))

/-- An active event of the user. -/
def ownedEvent (user : AuthUserSummary) (e : ScheduleEvent) : Bool :=
  decide (e.company_id = user.companyId) && decide (e.owner_user_id = user.userId) &&
  decide (e.status = .active)

/-- `_owned_schedule`, in a transaction of its own. -/
def isOwnedSchedule (db : Db) (user : AuthUserSummary) (item_id : String) : Bool :=
  (db.events.rows item_id).any (fun e => ownedEvent user e &&
    (db.calendars.rows e.calendar_id).any (fun c => decide (c.status = .active)))

def rewriteEvent (user : AuthUserSummary) (item_id calendar_id : String)
    (payload : SchedulePayload) : Db → Db :=
  Db.updateEvents (fun k e => decide (k = item_id) && ownedEvent user e)
    (fun e => { e with calendar_id := calendar_id, details := payload })

def update_schedule (user : AuthUserSummary) (item_id : String) (payload : SchedulePayload)
    (new_id : String) (now : Time) : Transaction := do
  let current ← Tx.select (fun db => isOwnedSchedule db user item_id)
  Tx.require (current = true)
  let allowed ← Tx.select (fun db => attendeesAllowed db user payload.attendeeUserIds)
  Tx.require (allowed = true)
  let calendar ← _resolve_owned_calendar user payload.calendarId new_id now
  commit (fun db => (calendar.written db).map (rewriteEvent user item_id calendar.id payload))

/-- An active event of the user, whatever its company. -/
def deletable (user : AuthUserSummary) (e : ScheduleEvent) : Bool :=
  decide (e.owner_user_id = user.userId) && decide (e.status = .active)

/-- `_soft_delete` of an event. -/
def delete_schedule (user : AuthUserSummary) (item_id : String) : Transaction := do
  let current ← Tx.select (fun db => (db.events.rows item_id).any (deletable user))
  Tx.require (current = true)
  commit (fun db => some (db.updateEvents (fun k e => decide (k = item_id) && deletable user e)
    deletedEvent))

/-- An event that `list_schedules` shows. -/
def listed (db : Db) (user : AuthUserSummary) (e : ScheduleEvent) : Bool :=
  (db.calendars.rows e.calendar_id).any (fun c => decide (c.status = .active) &&
    (db.users.rows e.owner_user_id).any (fun owner =>
      owner.active && decide (owner.company_id = e.company_id)) &&
    decide (e.company_id = user.companyId) && decide (e.status = .active) &&
    (decide (e.owner_user_id = user.userId) ||
      (decide ((db.subscriptions.select (fun _ sub => decide (sub.calendar_id = e.calendar_id) &&
        decide (sub.subscriber_user_id = user.userId) && decide (sub.status = .active))).Nonempty) &&
        decide (c.visibility ≠ .private))))

def list_schedules (db : Db) (user : AuthUserSummary) : List (String × ScheduleEvent) :=
  (db.events.orderedBy (fun e => e.details.startsAt)).filter (fun (_, e) => listed db user e)

/-! ## Runs -/

inductive Call
  | list_calendars (calendar_id : String) (now : Time)
  | create_calendar (item_id name color : String) (now : Time)
  | update_calendar (calendar_id : String) (payload : CalendarUpdatePayload)
  | reorder_calendars (items : List CalendarOrderItem)
  | delete_calendar (calendar_id : String) (expectedVersion : Nat)
  | create_calendar_subscription (subscription_id calendarId : String)
  | decide_calendar_subscription (subscription_id : String) (accepted : Bool)
  | cancel_calendar_subscription (subscription_id : String)
  | create_schedule (item_id : String) (payload : SchedulePayload) (new_id : String) (now : Time)
  | update_schedule (item_id : String) (payload : SchedulePayload) (new_id : String) (now : Time)
  | delete_schedule (item_id : String)

def Call.transaction (user : AuthUserSummary) : Call → Transaction
  | .list_calendars calendar_id now => calendars.list_calendars user calendar_id now
  | .create_calendar item_id name color now => calendars.create_calendar user item_id name color now
  | .update_calendar calendar_id payload => calendars.update_calendar user calendar_id payload
  | .reorder_calendars items => calendars.reorder_calendars user items
  | .delete_calendar calendar_id expectedVersion =>
    calendars.delete_calendar user calendar_id expectedVersion
  | .create_calendar_subscription subscription_id calendarId =>
    calendars.create_calendar_subscription user subscription_id calendarId
  | .decide_calendar_subscription subscription_id accepted =>
    calendars.decide_calendar_subscription user subscription_id accepted
  | .cancel_calendar_subscription subscription_id =>
    calendars.cancel_calendar_subscription user subscription_id
  | .create_schedule item_id payload new_id now =>
    calendars.create_schedule user item_id payload new_id now
  | .update_schedule item_id payload new_id now =>
    calendars.update_schedule user item_id payload new_id now
  | .delete_schedule item_id => calendars.delete_schedule user item_id

/-- A request of a user, or an administrator who closes or opens an account. -/
inductive Request
  | request (user_id : String) (call : Call)
  | set_user_status (user_id : String) (active : Bool)

/-- The summary that a session carries: the user and the company of the row. -/
def summaryOf (db : Db) (user_id : String) : Option AuthUserSummary :=
  ((db.users.rows user_id).filter User.active).map (fun row => ⟨user_id, row.company_id⟩)

def Request.begins : Request → Db → Option Transaction
  | .request user_id call, db => (summaryOf db user_id).map call.transaction
  | .set_user_status user_id active, _ => some (commit (fun db =>
      let users := db.users.update (fun k _ => decide (k = user_id)) (fun u =>
        { u with active := active })
      some { db with users := users }))

/-- No calendars, subscriptions and events yet. -/
def workspace : Database Db Key Unit Request where
  Start := fun db => db.calendars = .empty ∧ db.subscriptions = .empty ∧ db.events = .empty
  begins := fun request db => request.begins db

end moaworks.calendars
