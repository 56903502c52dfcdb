-- The merging of events into notifications, over whole runs of several processes: whom a merged
-- event reaches.
import MoaWorks.Lib.Machine
import MoaWorks.Lib.TableTotals
import MoaWorks.Notifications

namespace moaworks.notification_center

variable {row : Notification} {db : Db} {id process : String}

/-! ## Whom an event is for -/

/-- The columns that `_find_recent_notification_row` compares. -/
structure Key where
  dedup_key : String
  resource_type : String
  resource_id : String
  deriving DecidableEq, Repr

def EventEnvelope.key (event : EventEnvelope) : Key :=
  ⟨event.dedupKey, event.resourceType, event.resourceId⟩

def Notification.key (row : Notification) : Key := ⟨row.dedup_key, row.resource_type, row.resource_id⟩

variable (isAdmin : String → Bool)

/-- The users that an event names, or all of its visibility when it names none. -/
def EventEnvelope.targetsUser (event : EventEnvelope) (user_id : String) : Bool :=
  decide (user_id ∈ event.targets) ||
  (event.targets.isEmpty && (decide (event.visibility ≠ .admin) || isAdmin user_id))

/-- The occurrences of a thing that the notifications of a user count. -/
def accounted (db : Db) (user_id : String) (key : Key) : Nat :=
  db.notifications.total (fun _ row =>
    if row.key = key ∧ _is_visible row user_id (isAdmin user_id) = true then row.occurrence_count
    else 0)

/-- The status that the notification center shows: that of the user, or else the shared one. -/
def statusFor (db : Db) (notification_id user_id : String) : Option Status :=
  match db.states.rows (notification_id, user_id) with
  | some state => some state.status
  | none => (db.notifications.rows notification_id).map Notification.status

/-! ## Transactions that read and then write -/

/-- What a process has read in its open transaction. -/
inductive Pending
  | emitting (event : EventEnvelope) (built_at now : Time) (found : Option (String × Notification))
  | acking (notification_id : String) (record : Notification) (now : Time)

/-- The write of `_emit_event_db`, with all columns as they were read: `none` when it raises. -/
def writeEmit (db : Db) (event : EventEnvelope) (built_at now merged_at : Time) :
    Option (String × Notification) → Option (String × Db)
  | some (notification_id, merged) =>
    let row := { merged with
      occurrence_count := merged.occurrence_count + 1
      payload := _merge_payload merged.payload event.payload merged_at
      last_notified_at := now }
    some (notification_id, { db with notifications := db.notifications.set notification_id row })
  | none =>
    if (db.notifications.rows event.eventId).isSome then none
    else some (event.eventId, { db with
      notifications := db.notifications.set event.eventId
        (_build_notification_record event built_at) })

/-! ## Runs -/

/-- An event that was emitted, the notification that counts it, and the rows before it. -/
structure Emitted where
  event : EventEnvelope
  notification_id : String
  before : Db

/-- The lock of the service lets a process have one such transaction at a time. -/
structure MergeWorld where
  db : Db
  clock : Time
  pending : String → Option Pending
  log : List Emitted

inductive Event
  | emit_event (process : String) (event : EventEnvelope) (built_at now : Time)
  | ack_notification (process notification_id actor_user_id : String) (include_admin : Bool)
    (now : Time)
  | commit (process : String) (merged_at : Time)
  | crash (process : String)
  | mark_read (user_id : String) (changed : List String) (now : Time)
  | archive (user_id : String) (changed : List String) (now : Time)

def MergeWorld.setPending (w : MergeWorld) (process : String) (pending : Option Pending) : MergeWorld :=
  { w with pending := fun p => if p = process then pending else w.pending p }

def commit (w : MergeWorld) (process : String) (merged_at : Time) : Option MergeWorld :=
  let ended := w.setPending process none
  match w.pending process with
  | none => none
  | some (.emitting event built_at now found) =>
    match writeEmit w.db event built_at now merged_at found with
    | none => some ended
    | some (notification_id, db) => some { ended with
        db := db, log := w.log ++ [⟨event, notification_id, w.db⟩] }
  | some (.acking notification_id record now) =>
    let row := { record with status := .read, read_at := some now, acknowledged_at := some now }
    some { ended with db := { w.db with
      notifications := w.db.notifications.set notification_id row } }

def mergeStep (w : MergeWorld) : Event → Option MergeWorld
  | .emit_event process event built_at now =>
    if (w.pending process).isNone ∧ w.clock ≤ now then
      let found := _find_recent_notification_row w.db
        (_build_notification_record event built_at) now
      some { w.setPending process (some (.emitting event built_at now found)) with clock := now }
    else none
  | .ack_notification process notification_id actor_user_id include_admin now =>
    if (w.pending process).isNone then
      match w.db.notifications.rows notification_id with
      | none => none
      | some record => if _is_visible record actor_user_id include_admin then
          some (w.setPending process (some (.acking notification_id record now)))
        else none
    else none
  | .commit process merged_at => notification_center.commit w process merged_at
  | .crash process => some (w.setPending process none)
  | .mark_read user_id changed now =>
    some { w with db := (Transaction.write_read user_id changed now).commit w.db }
  | .archive user_id changed now =>
    some { w with db := (Transaction.write_archived user_id changed now).commit w.db }

/-- The service before its first event. -/
def mergeMachine : Machine MergeWorld Event where
  Start := fun w => w.db.notifications = .empty ∧ (∀ p, w.pending p = none) ∧ w.log = []
  step := mergeStep

/-! ## The law -/

/-- Each target of each event sees a notification that counts the event and was not read or
archived by him before. -/
structure Notifies (w : MergeWorld) : Prop where
  counts : ∀ user_id key, w.log.countP (fun e =>
    decide (e.event.key = key) && e.event.targetsUser isAdmin user_id) ≤
      accounted isAdmin w.db user_id key
  shown : ∀ e ∈ w.log, ∃ row, w.db.notifications.rows e.notification_id = some row ∧
    row.key = e.event.key ∧ ∀ user_id, e.event.targetsUser isAdmin user_id = true →
      _is_visible row user_id (isAdmin user_id) = true ∧
      (e.before.notifications.rows e.notification_id = none ∨
        statusFor e.before e.notification_id user_id = some .unread)

/-- No other transaction has counted in the row since it was read. -/
def Uncounted (w : MergeWorld) (notification_id : String) (record : Notification) : Prop :=
  ∃ row, w.db.notifications.rows notification_id = some row ∧
    row.occurrence_count = record.occurrence_count

/-- An event for admins only names admins; and it is merged only into a row that all its targets
see and have not read, and that was not written since. -/
def MergeMeets (w : MergeWorld) : Event → Prop
  | .commit process _ => match w.pending process with
    | some (.emitting event _ _ found) =>
      (event.visibility = .admin → ∀ u ∈ event.targets, isAdmin u = true) ∧
      ∀ notification_id merged, found = some (notification_id, merged) →
        Uncounted w notification_id merged ∧
        ∀ user_id, event.targetsUser isAdmin user_id = true →
          _is_visible merged user_id (isAdmin user_id) = true ∧
          statusFor w.db notification_id user_id = some .unread
    | some (.acking notification_id record _) => Uncounted w notification_id record
    | none => True
  | _ => True

/-! ## Rows keep their addresses -/

structure SameAddress (row row' : Notification) : Prop where
  key : row'.key = row.key
  visibility : row'.visibility = row.visibility
  recipients : row'.recipient_user_ids = row.recipient_user_ids

theorem SameAddress.refl (row : Notification) : SameAddress row row := ⟨rfl, rfl, rfl⟩

theorem SameAddress.visible {row' : Notification} (h : SameAddress row row') (user_id : String)
    (include_admin : Bool) :
    _is_visible row' user_id include_admin = _is_visible row user_id include_admin := by
  unfold _is_visible
  rw [h.visibility, h.recipients]

/-- The rows of before are there, with their addresses. -/
def Addressed (db db' : Db) : Prop :=
  ∀ id row, db.notifications.rows id = some row →
    ∃ row', db'.notifications.rows id = some row' ∧ SameAddress row row'

theorem addressed_set (h : ∀ old, db.notifications.rows id = some old → SameAddress old row) :
    Addressed db { db with notifications := db.notifications.set id row } := by
  intro k old hold
  dsimp only
  rw [Table.rows_set]
  split_ifs with hk
  · subst hk
    exact ⟨row, rfl, h old hold⟩
  · exact ⟨old, hold, .refl old⟩

variable {isAdmin}

/-- A fresh notification is visible to the targets of its event. -/
theorem visible_of_targets {event : EventEnvelope} {built_at : Time} {user_id : String}
    (hadmin : event.visibility = .admin → ∀ u ∈ event.targets, isAdmin u = true)
    (h : event.targetsUser isAdmin user_id = true) :
    _is_visible (_build_notification_record event built_at) user_id (isAdmin user_id) = true := by
  unfold EventEnvelope.targetsUser at h
  simp only [Bool.or_eq_true, Bool.and_eq_true, decide_eq_true_eq, List.isEmpty_iff] at h
  unfold _is_visible _build_notification_record
  dsimp only
  rcases h with hnamed | ⟨hempty, hall⟩
  · cases hvisibility : event.visibility with
    | admin => simp [hadmin hvisibility user_id hnamed, hnamed]
    | user => simp [hnamed]
    | both => simp [hnamed]
  · cases hvisibility : event.visibility with
    | admin =>
      rw [hvisibility] at hall
      simp [hempty, hall.resolve_left (fun hne => hne rfl)]
    | user => simp [hempty]
    | both => simp [hempty]

theorem find_recent_eq_some {notification : Notification} {now : Time}
    (h : _find_recent_notification_row db notification now = some (id, row)) :
    db.notifications.rows id = some row ∧ row.key = notification.key := by
  unfold _find_recent_notification_row at h
  obtain ⟨hlast, _⟩ := Option.filter_eq_some_iff.1 h
  obtain ⟨hmem, hsame⟩ := List.mem_filter.1 (List.mem_of_getLast? hlast)
  simp only [Bool.and_eq_true, decide_eq_true_eq] at hsame
  obtain ⟨⟨hkey, htype⟩, hid⟩ := hsame
  refine ⟨Table.mem_orderedBy.1 hmem, ?_⟩
  unfold Notification.key
  rw [hkey, htype, hid]

theorem write_read_notifications (user_id : String) (now : Time) (changed : List String)
    (db : Db) : ((Transaction.write_read user_id changed now).commit db).notifications =
      db.notifications := by
  change (changed.foldl (fun db id => db.writeRead user_id now id) db).notifications = _
  induction changed generalizing db with
  | nil => rfl
  | cons id changed ih => exact ih (db.writeRead user_id now id)

theorem write_archived_notifications (user_id : String) (now : Time) (changed : List String)
    (db : Db) : ((Transaction.write_archived user_id changed now).commit db).notifications =
      db.notifications := by
  change (changed.foldl (fun db id => db.writeArchived user_id now id) db).notifications = _
  induction changed generalizing db with
  | nil => rfl
  | cons id changed ih => exact ih (db.writeArchived user_id now id)

/-! ## Counts -/

/-- A write that keeps the address of the row and loses no occurrence of it. -/
theorem accounted_le_set (h : ∀ old, db.notifications.rows id = some old →
      SameAddress old row ∧ old.occurrence_count ≤ row.occurrence_count) (user_id : String)
    (key : Key) : accounted isAdmin db user_id key ≤
      accounted isAdmin { db with notifications := db.notifications.set id row } user_id key := by
  unfold accounted
  refine Table.total_set_le ?_
  cases hold : db.notifications.rows id with
  | none =>
    rw [Table.share_of_none hold]
    exact Nat.zero_le _
  | some old =>
    obtain ⟨hsame, hcount⟩ := h old hold
    rw [Table.share_of_some hold, hsame.key, hsame.visible]
    split_ifs
    · exact hcount
    · exact Nat.le_refl 0

/-- A write that counts one occurrence more, for a user who sees the row. -/
theorem accounted_succ_le_set (h : ∀ old, db.notifications.rows id = some old →
      SameAddress old row ∧ old.occurrence_count + 1 ≤ row.occurrence_count)
    (hnew : 1 ≤ row.occurrence_count) {user_id : String} {key : Key} (hkey : row.key = key)
    (hvisible : _is_visible row user_id (isAdmin user_id) = true) :
    accounted isAdmin db user_id key + 1 ≤
      accounted isAdmin { db with notifications := db.notifications.set id row } user_id key := by
  unfold accounted
  have htotal := Table.total_set db.notifications id row (fun _ row =>
    if row.key = key ∧ _is_visible row user_id (isAdmin user_id) = true then row.occurrence_count
    else 0)
  rw [if_pos ⟨hkey, hvisible⟩] at htotal
  cases hold : db.notifications.rows id with
  | none =>
    rw [Table.share_of_none hold] at htotal
    dsimp only
    omega
  | some old =>
    obtain ⟨hsame, hcount⟩ := h old hold
    rw [Table.share_of_some hold, if_pos ⟨hsame.key ▸ hkey, hsame.visible _ _ ▸ hvisible⟩]
      at htotal
    dsimp only
    omega

/-! ## The invariant -/

/-- What was read is still at its address. -/
def PendingInv (db : Db) : Pending → Prop
  | .emitting event _ _ found => ∀ id merged, found = some (id, merged) →
    merged.key = event.key ∧ ∃ row, db.notifications.rows id = some row ∧ SameAddress row merged
  | .acking id record _ => ∃ row, db.notifications.rows id = some row ∧ SameAddress row record

theorem PendingInv.addressed {db' : Db} (h : Addressed db db') {pending : Pending}
    (hp : PendingInv db pending) : PendingInv db' pending := by
  have hrow : ∀ {id : String} {record : Notification},
      (∃ row, db.notifications.rows id = some row ∧ SameAddress row record) →
        ∃ row, db'.notifications.rows id = some row ∧ SameAddress row record := by
    rintro id record ⟨row, hrow, hsame⟩
    obtain ⟨row', hrow', hkept⟩ := h id row hrow
    exact ⟨row', hrow', ⟨hsame.key.trans hkept.key.symm,
      hsame.visibility.trans hkept.visibility.symm,
      hsame.recipients.trans hkept.recipients.symm⟩⟩
  cases pending with
  | emitting event built_at now found =>
    intro id merged hfound
    obtain ⟨hkey, hexists⟩ := hp id merged hfound
    exact ⟨hkey, hrow hexists⟩
  | acking id record now => exact hrow hp

structure MergeInv (isAdmin : String → Bool) (w : MergeWorld) : Prop where
  law : Notifies isAdmin w
  pending : ∀ process p, w.pending process = some p → PendingInv w.db p

variable {w w' : MergeWorld}

/-- The log as it is, over rows that keep their addresses and lose no occurrence. -/
theorem Notifies.kept (h : Notifies isAdmin w) (hlog : w'.log = w.log)
    (haddressed : Addressed w.db w'.db)
    (hcounts : ∀ user_id key, accounted isAdmin w.db user_id key ≤
      accounted isAdmin w'.db user_id key) : Notifies isAdmin w' := by
  refine ⟨fun user_id key => ?_, fun e he => ?_⟩
  · rw [hlog]
    exact (h.counts user_id key).trans (hcounts user_id key)
  · rw [hlog] at he
    obtain ⟨row, hrow, hkey, hshown⟩ := h.shown e he
    obtain ⟨row', hrow', hsame⟩ := haddressed _ row hrow
    refine ⟨row', hrow', hsame.key.trans hkey, fun user_id htarget => ?_⟩
    obtain ⟨hvisible, hunread⟩ := hshown user_id htarget
    exact ⟨(hsame.visible _ _).trans hvisible, hunread⟩

/-- A step that writes no notification. -/
theorem MergeInv.same (h : MergeInv isAdmin w) (hlog : w'.log = w.log)
    (hdb : w'.db.notifications = w.db.notifications)
    (hpending : ∀ process p, w'.pending process = some p →
      PendingInv w.db p) : MergeInv isAdmin w' := by
  have haddressed : Addressed w.db w'.db := by
    intro id row hrow
    rw [hdb]
    exact ⟨row, hrow, .refl row⟩
  refine ⟨h.law.kept hlog haddressed (fun user_id key => ?_),
    fun process p hp => (hpending process p hp).addressed haddressed⟩
  unfold accounted
  rw [hdb]

theorem pending_setPending (h : MergeInv isAdmin w) {pending : Option Pending}
    (hnew : ∀ p, pending = some p → PendingInv w.db p) (other : String) (p : Pending)
    (hp : (w.setPending process pending).pending other = some p) : PendingInv w.db p := by
  change (if other = process then pending else w.pending other) = some p at hp
  split_ifs at hp
  · exact hnew p hp
  · exact h.pending other p hp

/-- An event that is counted in a row: it is logged with it. -/
theorem mergeInv_emitted (h : MergeInv isAdmin w) {event : EventEnvelope}
    (hkey : row.key = event.key) (hold : ∀ old, w.db.notifications.rows id = some old →
      SameAddress old row ∧ old.occurrence_count + 1 ≤ row.occurrence_count)
    (hnew : 1 ≤ row.occurrence_count)
    (hshown : ∀ user_id, event.targetsUser isAdmin user_id = true →
      _is_visible row user_id (isAdmin user_id) = true ∧
      (w.db.notifications.rows id = none ∨ statusFor w.db id user_id = some .unread)) :
    MergeInv isAdmin { w.setPending process none with
      db := { w.db with notifications := w.db.notifications.set id row }
      log := w.log ++ [⟨event, id, w.db⟩] } := by
  have haddressed : Addressed w.db { w.db with
      notifications := w.db.notifications.set id row } :=
    addressed_set (fun old ho => (hold old ho).1)
  have hle : ∀ user_id key, accounted isAdmin w.db user_id key ≤ accounted isAdmin
      { w.db with notifications := w.db.notifications.set id row } user_id key :=
    accounted_le_set (fun old ho => ⟨(hold old ho).1, Nat.le_of_succ_le (hold old ho).2⟩)
  refine ⟨⟨fun user_id key => ?_, fun e he => ?_⟩, fun other p hp => ?_⟩
  · dsimp only
    rw [List.countP_append, List.countP_singleton]
    split_ifs with hcounted
    · simp only [Bool.and_eq_true, decide_eq_true_eq] at hcounted
      obtain ⟨rfl, htarget⟩ := hcounted
      exact (Nat.succ_le_succ (h.law.counts user_id _)).trans
        (accounted_succ_le_set hold hnew hkey (hshown user_id htarget).1)
    · exact (h.law.counts user_id key).trans (hle user_id key)
  · rcases List.mem_append.1 he with hbefore | hlast
    · have hkept : Notifies isAdmin { w with
          db := { w.db with notifications := w.db.notifications.set id row } } :=
        h.law.kept rfl haddressed hle
      exact hkept.shown e hbefore
    · obtain rfl := List.mem_singleton.1 hlast
      exact ⟨row, Table.rows_set_self _ _ _, hkey, hshown⟩
  · exact (pending_setPending h (fun p hp => by cases hp) other p hp).addressed haddressed

theorem mergeInv_commit (h : MergeInv isAdmin w) {merged_at : Time}
    (hmeets : MergeMeets isAdmin w (.commit process merged_at))
    (hstep : commit w process merged_at = some w') : MergeInv isAdmin w' := by
  have hended : MergeInv isAdmin (w.setPending process none) :=
    h.same rfl rfl (pending_setPending h (fun p hp => by cases hp))
  unfold commit at hstep
  dsimp only [MergeMeets] at hmeets
  dsimp only at hstep
  cases hpending : w.pending process with
  | none =>
    rw [hpending] at hstep
    cases hstep
  | some p =>
    rw [hpending] at hstep hmeets
    have hinv := h.pending process p hpending
    cases p with
    | emitting event built_at now found =>
      obtain ⟨hadmin, hfound⟩ := hmeets
      cases found with
      | none =>
        dsimp only [writeEmit] at hstep
        split_ifs at hstep with htaken
        · cases hstep
          exact hended
        · cases hstep
          have hnone := Option.not_isSome_iff_eq_none.1 htaken
          refine mergeInv_emitted h rfl (fun old ho => ?_) (Nat.le_refl 1)
            (fun user_id htarget => ⟨visible_of_targets hadmin htarget, .inl hnone⟩)
          rw [hnone] at ho
          cases ho
      | some pair =>
        obtain ⟨id, merged⟩ := pair
        obtain ⟨hkey, row, hrow, hsame⟩ := hinv id merged rfl
        obtain ⟨⟨row', hrow', hcount⟩, hshown⟩ := hfound id merged rfl
        rw [hrow] at hrow'
        cases hrow'
        cases hstep
        refine mergeInv_emitted h hkey (fun old ho => ?_) (Nat.le_add_left 1 _)
          (fun user_id htarget => ⟨(hshown user_id htarget).1, .inr (hshown user_id htarget).2⟩)
        rw [hrow] at ho
        cases ho
        exact ⟨⟨hsame.key, hsame.visibility, hsame.recipients⟩,
          Nat.succ_le_succ (Nat.le_of_eq hcount)⟩
    | acking id record now =>
      obtain ⟨row, hrow, hsame⟩ := hinv
      obtain ⟨row', hrow', hcount⟩ := hmeets
      rw [hrow] at hrow'
      cases hrow'
      cases hstep
      have hwritten : ∀ old, w.db.notifications.rows id = some old →
          SameAddress old { record with
            status := .read, read_at := some now, acknowledged_at := some now } ∧
          old.occurrence_count ≤ record.occurrence_count := by
        intro old ho
        rw [hrow] at ho
        cases ho
        exact ⟨⟨hsame.key, hsame.visibility, hsame.recipients⟩, Nat.le_of_eq hcount⟩
      have haddressed := addressed_set (fun old ho => (hwritten old ho).1)
      refine ⟨h.law.kept rfl haddressed (accounted_le_set hwritten), fun other p hp => ?_⟩
      exact (pending_setPending h (fun p hp => by cases hp) other p hp).addressed haddressed

theorem mergeInv_step (h : MergeInv isAdmin w) {e : Event} (hmeets : MergeMeets isAdmin w e)
    (hstep : mergeMachine.step w e = some w') : MergeInv isAdmin w' := by
  cases e with
  | emit_event process event built_at now =>
    dsimp only [mergeMachine, mergeStep] at hstep
    split_ifs at hstep
    cases hstep
    refine h.same rfl rfl (pending_setPending h (fun p hp => ?_))
    cases hp
    intro id merged hfound
    obtain ⟨hrow, hkey⟩ := find_recent_eq_some hfound
    exact ⟨hkey, merged, hrow, .refl merged⟩
  | ack_notification process notification_id actor_user_id include_admin now =>
    dsimp only [mergeMachine, mergeStep] at hstep
    split_ifs at hstep
    split at hstep
    · cases hstep
    · rename_i record hrecord
      split_ifs at hstep
      cases hstep
      refine h.same rfl rfl (pending_setPending h (fun p hp => ?_))
      cases hp
      exact ⟨record, hrecord, .refl record⟩
  | commit process merged_at => exact mergeInv_commit h hmeets hstep
  | crash process =>
    cases hstep
    exact h.same rfl rfl (pending_setPending h (fun p hp => by cases hp))
  | mark_read user_id changed now =>
    cases hstep
    exact h.same rfl (write_read_notifications user_id now changed w.db) h.pending
  | archive user_id changed now =>
    cases hstep
    exact h.same rfl (write_archived_notifications user_id now changed w.db) h.pending

/-- In each run that meets the condition, every target of every event is notified. -/
theorem every_target_is_notified {w : MergeWorld}
    (h : mergeMachine.Reach (MergeMeets isAdmin) w) : Notifies isAdmin w := by
  refine (h.invariant (I := MergeInv isAdmin) (fun w hw => ?_)
    (fun w e w' _ hinv hmeets hstep => mergeInv_step hinv hmeets hstep)).law
  obtain ⟨_, hpending, hlog⟩ := hw
  refine ⟨⟨fun user_id key => ?_, fun e he => ?_⟩, fun process p hp => ?_⟩
  · rw [hlog]
    exact Nat.zero_le _
  · rw [hlog] at he
    exact absurd he List.not_mem_nil
  · rw [hpending] at hp
    cases hp

/-! ## Merged events -/

def nobodyIsAdmin : String → Bool := fun _ => false

def quietWorld : MergeWorld := ⟨⟨.empty, .empty⟩, 0, fun _ => none, []⟩

/-- A reminder of one thing for one user. -/
def reminder (eventId user_id : String) : EventEnvelope where
  eventId := eventId
  companyId := "acme"
  category := .schedule
  severity := .INFO
  resourceType := "schedule"
  resourceId := "meeting"
  dedupKey := "schedule:meeting"
  occurredAt := 0
  createdAt := 0
  payload := []
  targets := [user_id]
  visibility := .user
  details := ⟨"1.0", "schedule.reminder", "req", "title", "message", "backend", none, 4320, [], [],
    [], "user"⟩

/-- One event after another, in one process. -/
def emits (eventId user_id : String) (now : Time) : List Event :=
  [.emit_event "api" (reminder eventId user_id) now now, .commit "api" now]

def mergedAfter (events : List Event) : MergeWorld := (mergeMachine.run quietWorld events).getD quietWorld

theorem start_quietWorld : mergeMachine.Start quietWorld := ⟨rfl, fun _ => rfl, rfl⟩

theorem reachable_mergedAfter (events : List Event)
    (h : (mergeMachine.run quietWorld events).isSome = true) :
    mergeMachine.Reachable (mergedAfter events) := by
  obtain ⟨w, hw⟩ := Option.isSome_iff_exists.1 h
  unfold mergedAfter
  rw [hw]
  exact Machine.reachable_of_run start_quietWorld hw

/-- The event for Bob is counted in the notification of Ana. -/
def forAnother : List Event := emits "e1" "ana" 0 ++ emits "e2" "bob" (seconds 60)

/-- The second event for Ana is counted in the notification that she has archived. -/
def forArchived : List Event :=
  emits "e1" "ana" 0 ++ [.archive "ana" ["e1"] (seconds 30)] ++ emits "e2" "ana" (seconds 60)

/-- Two processes count their events from the same row. -/
def atOnce : List Event :=
  emits "e1" "ana" 0 ++ [.emit_event "api" (reminder "e2" "ana") (seconds 60) (seconds 60),
    .emit_event "worker" (reminder "e3" "ana") (seconds 60) (seconds 60),
    .commit "api" (seconds 60), .commit "worker" (seconds 60)]

theorem merged_events_are_lost :
    (∃ w, mergeMachine.Reachable w ∧ ¬ Notifies nobodyIsAdmin w ∧
      accounted nobodyIsAdmin w.db "bob" (reminder "e2" "bob").key = 0) ∧
    (∃ w, mergeMachine.Reachable w ∧ ∃ e ∈ w.log,
      e.event.targetsUser nobodyIsAdmin "ana" = true ∧
      (e.before.notifications.rows e.notification_id).isSome = true ∧
      statusFor e.before e.notification_id "ana" = some .archived) ∧
    ∃ w, mergeMachine.Reachable w ∧ w.log.length = 3 ∧
      accounted nobodyIsAdmin w.db "ana" (reminder "e1" "ana").key = 2 := by
  refine ⟨⟨_, reachable_mergedAfter forAnother (by decide +kernel), fun h => ?_,
    by decide +kernel⟩, ⟨_, reachable_mergedAfter forArchived (by decide +kernel), ?_⟩,
    ⟨_, reachable_mergedAfter atOnce (by decide +kernel), by decide +kernel, by decide +kernel⟩⟩
  · have hcounts := h.counts "bob" (reminder "e2" "bob").key
    revert hcounts
    decide +kernel
  · have hlog : (mergedAfter forArchived).log.any (fun e =>
        e.event.targetsUser nobodyIsAdmin "ana" &&
        (e.before.notifications.rows e.notification_id).isSome &&
        decide (statusFor e.before e.notification_id "ana" = some .archived)) = true := by
      decide +kernel
    obtain ⟨e, he, hall⟩ := List.any_eq_true.1 hlog
    simp only [Bool.and_eq_true, decide_eq_true_eq] at hall
    exact ⟨e, he, hall.1.1, hall.1.2, hall.2⟩

/-- The condition for an event that names its targets. -/
def mergesForNamed (isAdmin : String → Bool) (w : MergeWorld) (process : String) : Bool :=
  match w.pending process with
  | some (.emitting event _ _ found) =>
    decide (event.targets ≠ []) && decide (event.visibility ≠ .admin) &&
    found.all (fun (id, merged) =>
      (w.db.notifications.rows id).any (fun row =>
        decide (row.occurrence_count = merged.occurrence_count)) &&
      event.targets.all (fun u => _is_visible merged u (isAdmin u) &&
        decide (statusFor w.db id u = some .unread)))
  | _ => false

theorem meets_of_named (merged_at : Time) (h : mergesForNamed isAdmin w process = true) :
    MergeMeets isAdmin w (.commit process merged_at) := by
  unfold mergesForNamed at h
  dsimp only [MergeMeets]
  split at h
  · rename_i event built_at now found hpending
    rw [hpending]
    simp only [Bool.and_eq_true, decide_eq_true_eq] at h
    obtain ⟨⟨htargets, hvisibility⟩, hfound⟩ := h
    refine ⟨fun heq => absurd heq hvisibility, fun id merged heq => ?_⟩
    rw [heq, Option.all_some] at hfound
    simp only [Bool.and_eq_true, Option.any_eq_true, decide_eq_true_eq, List.all_eq_true] at hfound
    obtain ⟨⟨row, hrow, hcount⟩, hall⟩ := hfound
    refine ⟨⟨row, hrow, hcount⟩, fun user_id htarget => hall user_id ?_⟩
    unfold EventEnvelope.targetsUser at htarget
    simp only [Bool.or_eq_true, Bool.and_eq_true, decide_eq_true_eq, List.isEmpty_iff] at htarget
    rcases htarget with hnamed | ⟨hempty, _⟩
    · exact hnamed
    · exact absurd hempty htargets
  · cases h

def mergeCheck (w : MergeWorld) : Event → Bool
  | .commit process _ => mergesForNamed nobodyIsAdmin w process
  | _ => true

theorem meets_of_check (w : MergeWorld) (e : Event) (h : mergeCheck w e = true) :
    MergeMeets nobodyIsAdmin w e := by
  cases e with
  | commit process merged_at => exact meets_of_named merged_at h
  | _ => trivial

def mergedForAna : MergeWorld :=
  (mergeMachine.runWithin (fun w e => mergeCheck w e = true) quietWorld
    (emits "e1" "ana" 0 ++ emits "e2" "ana" (seconds 60))).get (by decide)

/-- Two events for Ana, in one notification that she has not read. -/
theorem ana_is_notified : mergedForAna.log.length = 2 ∧ Notifies nobodyIsAdmin mergedForAna :=
  ⟨by decide +kernel, every_target_is_notified
    (((Machine.Reach.start start_quietWorld).runWithin (Option.some_get _).symm).mono
      meets_of_check)⟩

end moaworks.notification_center
