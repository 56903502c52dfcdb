-- Notifications: the events that the services emit, the rows that they become, and what each
-- user lists, reads and archives of them.
import Mathlib.Data.String.Basic
import MoaWorks.Clock
import MoaWorks.Lib.Floats
import MoaWorks.Lib.Sessions
import MoaWorks.Lib.Table

namespace moaworks.notification_center

inductive Error
  | value_error (message : String)
  | permission_error (message : String)
  deriving DecidableEq, Repr

/-! ## Rows -/

inductive SeverityLevel
  | INFO
  | WARN
  | ERROR
  | CRITICAL
  deriving DecidableEq, Repr

def SeverityLevel.value : SeverityLevel → String
  | INFO => "INFO"
  | WARN => "WARN"
  | ERROR => "ERROR"
  | CRITICAL => "CRITICAL"

inductive MonitoringCategory
  | approval
  | mail
  | messenger
  | schedule
  | file
  | notice
  | system
  deriving DecidableEq, Repr

def MonitoringCategory.value : MonitoringCategory → String
  | approval => "approval"
  | mail => "mail"
  | messenger => "messenger"
  | schedule => "schedule"
  | file => "file"
  | notice => "notice"
  | system => "system"

inductive Visibility
  | admin
  | user
  | both
  deriving DecidableEq, Repr

inductive Status
  | unread
  | read
  | archived
  deriving DecidableEq, Repr

inductive Json
  | null
  | bool (b : Bool)
  | number (n : Int)
  | float (x : Number)
  | text (t : String)
  | time (t : Time)
  | list (items : List Json)
  | object (fields : List (String × Json))

/-- The fields of a JSON object, each key once. -/
abbrev Payload := List (String × Json)

/-- `merged[key] = value` of a dict: in its place, or at the end. -/
def Payload.set (payload : Payload) (key : String) (value : Json) : Payload :=
  if payload.any (fun field => decide (field.1 = key)) then
    payload.map (fun field => if field.1 = key then (key, value) else field)
  else payload ++ [(key, value)]

/-- What an event tells about itself, and no rule reads. -/
structure Details where
  schemaVersion : String
  eventType : String
  requestId : String
  title : String
  message : String
  source : String
  actorUserId : Option String
  ttlMinutes : Int
  links : List (String × String)
  delivery : Payload
  auditing : Payload
  targetAudience : String

/-- An event, as a service emits it. -/
structure EventEnvelope where
  eventId : String
  companyId : String
  category : MonitoringCategory
  severity : SeverityLevel
  resourceType : String
  resourceId : String
  dedupKey : String
  occurredAt : Time
  createdAt : Time
  payload : Payload
  targets : List String
  visibility : Visibility
  details : Details

/-- A row of `notifications`. -/
structure Notification where
  event_id : String
  company_id : String
  category : MonitoringCategory
  severity : SeverityLevel
  resource_type : String
  resource_id : String
  dedup_key : String
  occurrence_count : Nat
  occurred_at : Time
  created_at : Time
  payload : Payload
  status : Status
  read_at : Option Time
  acknowledged_at : Option Time
  archived_at : Option Time
  visibility : Visibility
  recipient_user_ids : List String
  last_notified_at : Time
  details : Details

/-- A row of `notification_user_states`. -/
structure UserState where
  status : Status
  read_at : Option Time
  archived_at : Option Time
  updated_at : Time
  deriving DecidableEq, Repr

structure Db where
  notifications : Table String Notification
  /-- Under the notification and the user. -/
  states : Table (String × String) UserState

/-! ## The shared rows -/

def _is_visible (item : Notification) (user_id : String) (include_admin : Bool) : Bool :=
  match item.visibility with
  | .admin => include_admin &&
    (item.recipient_user_ids.isEmpty || decide (user_id ∈ item.recipient_user_ids))
  | .user => item.recipient_user_ids.isEmpty || decide (user_id ∈ item.recipient_user_ids)
  | .both => item.recipient_user_ids.isEmpty || decide (user_id ∈ item.recipient_user_ids)

def _build_notification_record (event : EventEnvelope) (now : Time) : Notification where
  event_id := event.eventId
  company_id := event.companyId
  category := event.category
  severity := event.severity
  resource_type := event.resourceType
  resource_id := event.resourceId
  dedup_key := event.dedupKey
  occurrence_count := 1
  occurred_at := event.occurredAt
  created_at := event.createdAt
  payload := event.payload
  status := .unread
  read_at := none
  acknowledged_at := none
  archived_at := none
  visibility := event.visibility
  recipient_user_ids := event.targets
  last_notified_at := now
  details := event.details

def _DUP_WINDOW : Time := minutes 2

/-- The newest row of the same thing, unless it is older than the window. -/
def _find_recent_notification_row (db : Db) (notification : Notification) (now : Time) :
    Option (String × Notification) :=
  (((db.notifications.orderedBy Notification.last_notified_at).filter (fun row =>
    decide (row.2.dedup_key = notification.dedup_key) &&
    decide (row.2.resource_type = notification.resource_type) &&
    decide (row.2.resource_id = notification.resource_id))).getLast?).filter
      (fun row => decide (now - row.2.last_notified_at ≤ _DUP_WINDOW))

def _merge_payload (existing latest : Payload) (now : Time) : Payload :=
  if latest.isEmpty then existing
  else (existing.set "latestEventPayload" (.object latest)).set "lastMergedAt" (.time now)

/-- The rows after an event: it is counted in a recent row of the same thing, or gets its own. A
second row of one id is refused. -/
def _emit_event_db (db : Db) (event : EventEnvelope) (built_at now merged_at : Time) : Db :=
  let notification := _build_notification_record event built_at
  match _find_recent_notification_row db notification now with
  | some (notification_id, merged) => { db with
    notifications := db.notifications.set notification_id { merged with
      occurrence_count := merged.occurrence_count + 1
      payload := _merge_payload merged.payload notification.payload merged_at
      last_notified_at := now } }
  | none =>
    if (db.notifications.rows event.eventId).isSome then db
    else { db with notifications := db.notifications.set event.eventId notification }

structure NotificationEnvelope where
  notificationId : String
  record : Notification

/-- The rows of the WHERE clause of a list, newest first. -/
def Db.matching (db : Db) (cursor : Option Time) (unread_only : Bool) (severities : List String)
    (category : Option String) : List (String × Notification) :=
  (db.notifications.orderedBy Notification.created_at).reverse.filter (fun row =>
    cursor.all (fun t => decide (row.2.created_at < t)) &&
    (!unread_only || decide (row.2.status = .unread)) &&
    (severities.isEmpty || decide (row.2.severity.value ∈ severities)) &&
    (category.filter (fun c => decide (c ≠ ""))).all
      (fun c => decide (row.2.category.value = c)))

def _fetch_notification_rows (db : Db) (cursor : Option Time) (unread_only : Bool)
    (severities : List String) (category : Option String) : List NotificationEnvelope :=
  ((db.matching cursor unread_only severities category).take 1000).map
    (fun row => ⟨row.1, row.2⟩)

def _list_notifications_db (db : Db) (user_id : String) (include_admin unread_only : Bool)
    (severities : List String) (category : Option String) (cursor : Option Time) (limit : Nat) :
    List NotificationEnvelope :=
  ((_fetch_notification_rows db cursor unread_only severities category).filter
    (fun item => _is_visible item.record user_id include_admin)).take limit

def notFound : Error := .value_error "대상 알림을 찾을 수 없습니다."

def _get_notification_db (db : Db) (user_id notification_id : String) (include_admin : Bool) :
    Except Error NotificationEnvelope :=
  match db.notifications.rows notification_id with
  | none => .error notFound
  | some record =>
    if _is_visible record user_id include_admin then .ok ⟨notification_id, record⟩
    else .error (.permission_error "해당 알림에 접근할 권한이 없습니다.")

def _ack_notification_db (db : Db) (notification_id actor_user_id : String) (include_admin : Bool)
    (now : Time) : Except Error NotificationEnvelope :=
  match db.notifications.rows notification_id with
  | none => .error notFound
  | some record =>
    if _is_visible record actor_user_id include_admin then
      .ok ⟨notification_id,
        { record with status := .read, read_at := some now, acknowledged_at := some now }⟩
    else .error (.permission_error "해당 알림을 읽음 처리할 권한이 없습니다.")

/-! ## Transactions -/

inductive Transaction
  | read
  | emit (event : EventEnvelope) (built_at now merged_at : Time)
  | ack (notification_id actor_user_id : String) (include_admin : Bool) (now : Time)
  | write_read (user_id : String) (changed : List String) (now : Time)
  | write_archived (user_id : String) (changed : List String) (now : Time)

/-- The upsert of `mark_read`. -/
def Db.writeRead (db : Db) (user_id : String) (now : Time) (notification_id : String) : Db :=
  { db with states := db.states.set (notification_id, user_id) ⟨.read, some now, none, now⟩ }

/-- The upsert of `archive`. -/
def Db.writeArchived (db : Db) (user_id : String) (now : Time) (notification_id : String) : Db :=
  { db with
    states := db.states.set (notification_id, user_id) {
      status := .archived
      read_at := ((db.states.rows (notification_id, user_id)).bind UserState.read_at).or (some now)
      archived_at := some now
      updated_at := now } }

def Transaction.commit : Transaction → Db → Db
  | read, db => db
  | emit event built_at now merged_at, db => _emit_event_db db event built_at now merged_at
  | ack notification_id actor_user_id include_admin now, db =>
    match _ack_notification_db db notification_id actor_user_id include_admin now with
    | .ok item => { db with notifications := db.notifications.set item.notificationId item.record }
    | .error _ => db
  | write_read user_id changed now, db =>
    changed.foldl (fun db id => db.writeRead user_id now id) db
  | write_archived user_id changed now, db =>
    changed.foldl (fun db id => db.writeArchived user_id now id) db

end moaworks.notification_center
