-- The notification center: the calls of the users, each a sequence of transactions over the
-- shared rows and the states of the user.
import MoaWorks.Notifications

namespace moaworks.notification_center

/-! ## Answers -/

structure NotificationListResponse where
  notifications : List NotificationEnvelope
  nextCursor : Option Time
  hasMore : Bool

structure NotificationSummary where
  unreadCount : Nat
  severityCount : SeverityLevel → Nat
  latestCriticalAt : Option Time
  latestWarnAt : Option Time

structure NotificationBulkActionResponse where
  updatedCount : Nat
  notifications : List NotificationEnvelope

inductive Reply
  | listed (response : NotificationListResponse)
  | notification (item : NotificationEnvelope)
  | summary (response : NotificationSummary)
  | bulk (response : NotificationBulkActionResponse)
  | emitted

/-! ## Programs -/

abbrev Request (α : Type) := Session Db Transaction Error α

/-- A SELECT in a transaction of its own. -/
def select {α : Type} (f : Db → Except Error α) : Request α := Session.transact .read f

def _load_states (user_id : String) (notification_ids : List String) :
    Request (String → Option UserState) :=
  if notification_ids.isEmpty then pure (fun _ => none)
  else select (fun db => .ok (fun id =>
    if id ∈ notification_ids then db.states.rows (id, user_id) else none))

def _apply_state (item : NotificationEnvelope) (state : Option UserState) :
    NotificationEnvelope :=
  match state with
  | none => item
  | some state => { item with record := { item.record with
      status := state.status
      read_at := state.read_at
      acknowledged_at := state.read_at
      archived_at := state.archived_at } }

/-- The filters of a list. -/
structure ListFilter where
  unread_only : Bool
  severities : List String
  category : Option String
  cursor : Option Time
  from_at : Option Time
  to_at : Option Time
  limit : Nat
  deriving DecidableEq, Repr

def ListFilter.shows (filter : ListFilter) (current : NotificationEnvelope) : Bool :=
  decide (current.record.status ≠ .archived) &&
  (!filter.unread_only || decide (current.record.status = .unread)) &&
  filter.from_at.all (fun t => decide (t ≤ current.record.occurred_at)) &&
  filter.to_at.all (fun t => decide (current.record.occurred_at ≤ t))

/-- The page of a list, from the shared rows and the states of the user. -/
def page (filter : ListFilter) (base : List NotificationEnvelope)
    (states : String → Option UserState) : NotificationListResponse :=
  let visible := (base.map (fun item => _apply_state item (states item.notificationId))).filter
    filter.shows
  let page := visible.take filter.limit
  { notifications := page
    nextCursor := page.getLast?.map (fun item => item.record.created_at)
    hasMore := decide (page.length < visible.length) }

def list_notifications (user_id : String) (filter : ListFilter) :
    Request NotificationListResponse := do
  let base ← select (fun db => .ok (_list_notifications_db db user_id false false
    filter.severities filter.category filter.cursor 1000))
  let states ← _load_states user_id (base.map NotificationEnvelope.notificationId)
  return page filter base states

def get_notification (user_id notification_id : String) : Request NotificationEnvelope := do
  let item ← select (fun db => _get_notification_db db user_id notification_id false)
  let states ← _load_states user_id [notification_id]
  let current := _apply_state item (states notification_id)
  if current.record.status = .archived then
    Session.lift (.error notFound)
  else
    return current

def everything : ListFilter := ⟨false, [], none, none, none, none, 1000⟩

def latestAt (level : SeverityLevel) (items : List NotificationEnvelope) : Option Time :=
  ((items.filter (fun item => decide (item.record.severity = level))).map
    (fun item => item.record.occurred_at)).max?

def summarize (items : List NotificationEnvelope) : NotificationSummary where
  unreadCount := (items.filter (fun item => decide (item.record.status = .unread))).length
  severityCount := fun level =>
    (items.filter (fun item => decide (item.record.severity = level))).length
  latestCriticalAt := latestAt .CRITICAL items
  latestWarnAt := latestAt .WARN items

def summary (user_id : String) : Request NotificationSummary := do
  let response ← list_notifications user_id everything
  return summarize response.notifications

/-- The targets of `mark_read`, none of them archived. -/
def _validate_targets (user_id : String) (notification_ids : List String) :
    Request (List NotificationEnvelope) :=
  notification_ids.eraseDups.mapM (fun id => get_notification user_id id)

/-- The targets of `archive`, archived or not. -/
def _validate_archived_targets (user_id : String) (notification_ids : List String) :
    Request (List NotificationEnvelope) := do
  let unique_ids := notification_ids.eraseDups
  let items ← unique_ids.mapM (fun id =>
    select (fun db => _get_notification_db db user_id id false))
  let states ← _load_states user_id unique_ids
  return items.map (fun item => _apply_state item (states item.notificationId))

/-- The ids of the items whose state is another one. -/
def changedIds (status : Status) (items : List NotificationEnvelope)
    (states : String → Option UserState) : List String :=
  (items.map NotificationEnvelope.notificationId).filter
    (fun id => decide ((states id).map UserState.status ≠ some status))

def mark_read (user_id : String) (notification_ids : List String) (now : Time) :
    Request NotificationBulkActionResponse := do
  let items ← _validate_targets user_id notification_ids
  let states ← _load_states user_id (items.map NotificationEnvelope.notificationId)
  let changed := changedIds .read items states
  let updated := items.map (fun item =>
    let read_at := ((states item.notificationId).bind UserState.read_at).or (some now)
    { item with record := { item.record with
        status := .read, read_at := read_at, acknowledged_at := read_at, archived_at := none } })
  Session.transact (.write_read user_id changed now) (fun _ => .ok ⟨changed.length, updated⟩)

def mark_all_read (user_id : String) (severities : List String) (category : Option String)
    (now : Time) : Request NotificationBulkActionResponse := do
  let response ← list_notifications user_id
    { everything with unread_only := true, severities := severities, category := category }
  if response.notifications.isEmpty then return ⟨0, []⟩
  else mark_read user_id (response.notifications.map NotificationEnvelope.notificationId) now

def archive (user_id : String) (notification_ids : List String) (now : Time) :
    Request NotificationBulkActionResponse := do
  let items ← _validate_archived_targets user_id notification_ids
  let states ← _load_states user_id (items.map NotificationEnvelope.notificationId)
  let changed := changedIds .archived items states
  let updated := items.map (fun item =>
    { item with record := { item.record with
        status := .archived
        read_at := (((states item.notificationId).bind UserState.read_at).or
          item.record.read_at).or (some now)
        archived_at := ((states item.notificationId).bind UserState.archived_at).or
          (some now) } })
  Session.transact (.write_archived user_id changed now) (fun _ => .ok ⟨changed.length, updated⟩)

def ack_notification (notification_id actor_user_id : String) (include_admin : Bool)
    (now : Time) : Request NotificationEnvelope :=
  Session.transact (.ack notification_id actor_user_id include_admin now)
    (fun db => _ack_notification_db db notification_id actor_user_id include_admin now)

/-! ## The service -/

inductive Call
  | list_notifications (user_id : String) (filter : ListFilter)
  | get_notification (user_id notification_id : String)
  | summary (user_id : String)
  | mark_read (user_id : String) (notification_ids : List String) (now : Time)
  | mark_all_read (user_id : String) (severities : List String) (category : Option String)
    (now : Time)
  | archive (user_id : String) (notification_ids : List String) (now : Time)
  | ack_notification (notification_id actor_user_id : String) (include_admin : Bool) (now : Time)
  | emit_event (event : EventEnvelope) (built_at now merged_at : Time)

/-- The user who calls; the services emit events. -/
def Call.user_id : Call → Option String
  | list_notifications user_id _ => some user_id
  | get_notification user_id _ => some user_id
  | summary user_id => some user_id
  | mark_read user_id _ _ => some user_id
  | mark_all_read user_id _ _ _ => some user_id
  | archive user_id _ _ => some user_id
  | ack_notification _ actor_user_id _ _ => some actor_user_id
  | emit_event _ _ _ _ => none

def Call.program : Call → Request Reply
  | list_notifications user_id filter =>
    Reply.listed <$> notification_center.list_notifications user_id filter
  | get_notification user_id notification_id =>
    Reply.notification <$> notification_center.get_notification user_id notification_id
  | summary user_id => Reply.summary <$> notification_center.summary user_id
  | mark_read user_id notification_ids now =>
    Reply.bulk <$> notification_center.mark_read user_id notification_ids now
  | mark_all_read user_id severities category now =>
    Reply.bulk <$> notification_center.mark_all_read user_id severities category now
  | archive user_id notification_ids now =>
    Reply.bulk <$> notification_center.archive user_id notification_ids now
  | ack_notification notification_id actor_user_id include_admin now =>
    Reply.notification <$>
      notification_center.ack_notification notification_id actor_user_id include_admin now
  | emit_event event built_at now merged_at =>
    Session.transact (.emit event built_at now merged_at) (fun _ => .ok .emitted)

/-- The service, from any rows. -/
def service : Service Db Transaction Error Call Reply where
  Start := fun _ => True
  program := Call.program
  commit := Transaction.commit

end moaworks.notification_center
