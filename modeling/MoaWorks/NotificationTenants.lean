-- What the events of one company do to the users of another one: two runs that differ in these
-- events alone, side by side.
import MoaWorks.Lib.Raise
import MoaWorks.Lib.TableOrder
import MoaWorks.NotificationLaws

namespace moaworks.notification_center

/-! ## Calls one after another -/

/-- A call that no other one meets: its answer, and the tables after it. -/
def Call.perform (k : Call) (db : Db) : Except Error Reply × Db :=
  k.program.run Transaction.commit db

/-- The shared rows that a user lists, and his states of them. -/
def Db.listed (db : Db) (user_id : String) (filter : ListFilter) : NotificationListResponse :=
  let base := _list_notifications_db db user_id false false filter.severities filter.category
    filter.cursor 1000
  page filter base (fun id => if id ∈ base.map NotificationEnvelope.notificationId then
    db.states.rows (id, user_id) else none)

def Db.opened (db : Db) (user_id id : String) : Except Error NotificationEnvelope := do
  let item ← _get_notification_db db user_id id false
  let current := _apply_state item (db.states.rows (id, user_id))
  if current.record.status = .archived then .error notFound
  else .ok current

theorem run_select {α : Type} (f : Db → Except Error α) (db : Db) :
    (select f).run Transaction.commit db = (f db, db) := rfl

theorem run_load_states (user_id : String) (ids : List String) (db : Db) :
    (_load_states user_id ids).run Transaction.commit db =
      (.ok (fun id => if id ∈ ids then db.states.rows (id, user_id) else none), db) := by
  unfold _load_states
  cases ids with
  | nil => simp [Session.run_pure]
  | cons id ids => rfl

theorem run_list_notifications (user_id : String) (filter : ListFilter) (db : Db) :
    (list_notifications user_id filter).run Transaction.commit db =
      (.ok (db.listed user_id filter), db) := by
  unfold list_notifications
  simp only [Session.run_bind, run_select, run_load_states]
  rfl

theorem run_get_notification (user_id id : String) (db : Db) :
    (get_notification user_id id).run Transaction.commit db = (db.opened user_id id, db) := by
  unfold get_notification Db.opened
  rw [Session.run_bind, run_select]
  cases _get_notification_db db user_id id false with
  | error e => rfl
  | ok item =>
    simp only [Session.run_bind, run_load_states, List.mem_singleton, if_true]
    simp only [bind, Except.bind]
    split_ifs
    · rfl
    · rfl

/-! ## The writes of a user -/

/-- The ids that a `mark_read` or an `archive` writes, from the targets that it has read. -/
def Db.writes (db : Db) (user_id : String) (status : Status)
    (validate : String → Except Error NotificationEnvelope) (ids : List String) :
    Except Error (List String) := do
  let items ← ids.eraseDups.mapM validate
  return changedIds status items (fun id =>
    if id ∈ items.map NotificationEnvelope.notificationId then db.states.rows (id, user_id)
    else none)

/-- A call that writes `changed`, or raises before it writes. -/
def Wrote (db : Db) (changed : Except Error (List String))
    (write : List String → Transaction) (after : Except Error Reply × Db) : Prop :=
  (after.1.toOption.isSome = changed.toOption.isSome) ∧
    after.2 = (changed.toOption.map (fun ids => (write ids).commit db)).getD db

theorem perform_mark_read (user_id : String) (ids : List String) (now : Time) (db : Db) :
    Wrote db (db.writes user_id .read (db.opened user_id) ids)
      (fun changed => .write_read user_id changed now)
      ((Call.mark_read user_id ids now).perform db) := by
  unfold Call.perform Call.program Db.writes
  simp only
  unfold mark_read _validate_targets
  rw [Session.run_map, Session.run_bind, Session.run_mapM _ (fun id => run_get_notification ..)]
  cases ids.eraseDups.mapM (db.opened user_id) with
  | error e => exact ⟨rfl, rfl⟩
  | ok items =>
    simp only [Session.run_bind, run_load_states]
    exact ⟨rfl, rfl⟩

theorem perform_archive (user_id : String) (ids : List String) (now : Time) (db : Db) :
    Wrote db (db.writes user_id .archived
        (fun id => _get_notification_db db user_id id false) ids)
      (fun changed => .write_archived user_id changed now)
      ((Call.archive user_id ids now).perform db) := by
  unfold Call.perform Call.program Db.writes
  simp only
  unfold archive _validate_archived_targets
  simp only [Session.run_map, Session.run_bind]
  rw [Session.run_mapM _ (fun id => run_select ..)]
  cases ids.eraseDups.mapM (fun id => _get_notification_db db user_id id false) with
  | error e => exact ⟨rfl, rfl⟩
  | ok items =>
    have hids : (items.map (fun item => _apply_state item
        (if item.notificationId ∈ ids.eraseDups then
          db.states.rows (item.notificationId, user_id) else none))).map
            NotificationEnvelope.notificationId =
        items.map NotificationEnvelope.notificationId := by
      rw [List.map_map]
      exact List.map_congr_left (fun item _ => apply_state_id item _)
    simp only [run_load_states, Session.run_pure, hids]
    refine ⟨rfl, ?_⟩
    simp only [changedIds, hids]
    rfl

theorem perform_mark_all_read (user_id : String) (severities : List String)
    (category : Option String) (now : Time) (db : Db) :
    (Call.mark_all_read user_id severities category now).perform db =
      let response := db.listed user_id
        { everything with unread_only := true, severities := severities, category := category }
      if response.notifications.isEmpty then (.ok (.bulk ⟨0, []⟩), db)
      else (Call.mark_read user_id (response.notifications.map NotificationEnvelope.notificationId)
        now).perform db := by
  unfold Call.perform Call.program
  simp only
  unfold mark_all_read
  rw [Session.run_map, Session.run_bind, run_list_notifications]
  simp only
  split_ifs with hempty
  · rfl
  · rw [Session.run_map]

/-! ## Two tables that differ in the rows of one company -/

section Alike

variable (company user_id : String)

/-- A row of another company. -/
def elsewhere (record : Notification) : Bool := decide (record.company_id ≠ company)

/-- The user sees no row of the company, and has touched none. -/
def Hidden (db : Db) : Prop :=
  ∀ id record, db.notifications.rows id = some record → record.company_id = company →
    _is_visible record user_id false = false

/-- The rows of the other companies are the same, and so are the states of the user. -/
structure Alike (db db' : Db) : Prop where
  rows : ∀ id, (db.notifications.rows id).filter (elsewhere company) =
    (db'.notifications.rows id).filter (elsewhere company)
  states : ∀ id, db.states.rows (id, user_id) = db'.states.rows (id, user_id)
  hidden : Hidden company user_id db
  hidden' : Hidden company user_id db'

variable {company user_id}

theorem Alike.symm {db db' : Db} (h : Alike company user_id db db') :
    Alike company user_id db' db :=
  ⟨fun id => (h.rows id).symm, fun id => (h.states id).symm, h.hidden', h.hidden⟩

theorem elsewhere_iff {record : Notification} :
    elsewhere company record = true ↔ record.company_id ≠ company := decide_eq_true_iff

theorem Alike.row {db db' : Db} (h : Alike company user_id db db') {id : String}
    {record : Notification} (hrow : db.notifications.rows id = some record)
    (hcompany : record.company_id ≠ company) : db'.notifications.rows id = some record := by
  have hrows := h.rows id
  rw [hrow, Option.filter_some_pos (elsewhere_iff.2 hcompany)] at hrows
  exact (Option.filter_eq_some_iff.1 hrows.symm).1

/-! ### What the user reads -/

/-- What the user sees in one of them is in the other one too. -/
theorem Alike.visible_row {db db' : Db} (h : Alike company user_id db db') {id : String}
    {record : Notification} (hrow : db.notifications.rows id = some record)
    (hvisible : _is_visible record user_id false = true) :
    db'.notifications.rows id = some record := by
  refine h.row hrow (fun hcompany => ?_)
  rw [h.hidden id record hrow hcompany] at hvisible
  cases hvisible

theorem get_db_eq_some {db : Db} {id : String} {item : NotificationEnvelope} :
    (_get_notification_db db user_id id false).toOption = some item ↔
      ∃ record, db.notifications.rows id = some record ∧
        _is_visible record user_id false = true ∧ item = ⟨id, record⟩ := by
  unfold _get_notification_db
  cases db.notifications.rows id with
  | none => simp [Except.toOption]
  | some record =>
    simp only
    split_ifs with hvisible
    · constructor
      · intro h
        cases h
        exact ⟨record, rfl, hvisible, rfl⟩
      · rintro ⟨_, hrow, _, rfl⟩
        cases hrow
        rfl
    · constructor
      · exact nofun
      · rintro ⟨_, hrow, hsees, _⟩
        cases hrow
        exact absurd hsees hvisible

theorem Alike.get_db {db db' : Db} (h : Alike company user_id db db') (id : String) :
    (_get_notification_db db user_id id false).toOption =
      (_get_notification_db db' user_id id false).toOption := by
  ext item
  rw [get_db_eq_some, get_db_eq_some]
  constructor
  · rintro ⟨record, hrow, hvisible, rfl⟩
    exact ⟨record, h.visible_row hrow hvisible, hvisible, rfl⟩
  · rintro ⟨record, hrow, hvisible, rfl⟩
    exact ⟨record, h.symm.visible_row hrow hvisible, hvisible, rfl⟩

theorem Alike.opened {db db' : Db} (h : Alike company user_id db db') (id : String) :
    (db.opened user_id id).toOption = (db'.opened user_id id).toOption := by
  have hget := h.get_db id
  unfold Db.opened
  rw [h.states id]
  revert hget
  cases _get_notification_db db user_id id false <;>
    cases _get_notification_db db' user_id id false <;> intro hget <;> cases hget <;> rfl

/-- The rows of the company push none of the others out of the scan of a list. -/
def ScanIsWide (company : String) (db : Db) (filter : ListFilter) : Prop :=
  ((db.matching filter.cursor false filter.severities filter.category).take 1000).filter
      (fun row => elsewhere company row.2) =
    ((db.matching filter.cursor false filter.severities filter.category).filter
      (fun row => elsewhere company row.2)).take 1000

theorem Alike.matching {db db' : Db} (h : Alike company user_id db db') (cursor : Option Time)
    (severities : List String) (category : Option String) :
    (db.matching cursor false severities category).filter (fun row => elsewhere company row.2) =
      (db'.matching cursor false severities category).filter
        (fun row => elsewhere company row.2) := by
  have horder := Table.filter_orderedBy_congr (f := Notification.created_at) h.rows
  have hclauses : ∀ (q : String × Notification → Bool) (l : List (String × Notification)),
      (l.reverse.filter q).filter (fun row => elsewhere company row.2) =
        (l.filter (fun row => elsewhere company row.2)).reverse.filter q := by
    intro q l
    rw [← List.filter_reverse, List.filter_filter, List.filter_filter]
    simp only [Bool.and_comm]
  unfold Db.matching
  rw [hclauses, hclauses, horder]

theorem Alike.listed {db db' : Db} (h : Alike company user_id db db') {filter : ListFilter}
    (hwide : ScanIsWide company db filter) (hwide' : ScanIsWide company db' filter) :
    db.listed user_id filter = db'.listed user_id filter := by
  have hscan : ∀ {db : Db}, Hidden company user_id db → ScanIsWide company db filter →
      _list_notifications_db db user_id false false filter.severities filter.category
        filter.cursor 1000 =
      (((((db.matching filter.cursor false filter.severities filter.category).filter
        (fun row => elsewhere company row.2)).take 1000).map
          (fun row => (⟨row.1, row.2⟩ : NotificationEnvelope))).filter
            (fun item => _is_visible item.record user_id false)).take 1000 := by
    intro db hhidden hwide
    rw [← hwide]
    unfold _list_notifications_db _fetch_notification_rows
    rw [List.filter_map, List.filter_map, List.filter_filter]
    congr 2
    apply List.filter_congr
    rintro ⟨id, record⟩ hmem
    by_cases hvisible : _is_visible record user_id false = true
    · have hrow : db.notifications.rows id = some record := by
        have hrows := List.mem_of_mem_take hmem
        unfold Db.matching at hrows
        rw [List.mem_filter, List.mem_reverse, Table.mem_orderedBy] at hrows
        exact hrows.1
      have hother : elsewhere company record = true := by
        refine elsewhere_iff.2 (fun hcompany => ?_)
        rw [hhidden id record hrow hcompany] at hvisible
        cases hvisible
      simp [hvisible, hother]
    · simp [hvisible]
  unfold Db.listed
  rw [hscan h.hidden hwide, hscan h.hidden' hwide', h.matching]
  simp only [h.states]

/-! ### What a call writes -/

/-- The row of an id of the company, or of no one, is written in one of the two. -/
theorem Alike.set_left {db db' : Db} (h : Alike company user_id db db') {id : String}
    (hbefore : ∀ record, db.notifications.rows id = some record → record.company_id = company)
    {record : Notification} (hcompany : record.company_id = company)
    (hhidden : _is_visible record user_id false = false) :
    Alike company user_id { db with notifications := db.notifications.set id record } db' := by
  have hmine : ∀ {record : Notification}, record.company_id = company →
      elsewhere company record = false := fun hc => decide_eq_false (not_not.2 hc)
  refine ⟨fun j => ?_, h.states, fun j r hr => ?_, h.hidden'⟩
  · rw [Table.rows_set]
    split_ifs with hj
    · rw [hj, ← h.rows id, Option.filter_some_neg (hmine hcompany)]
      cases hrow : db.notifications.rows id with
      | none => rfl
      | some r => rw [Option.filter_some_neg (hmine (hbefore r hrow))]
    · exact h.rows j
  · rw [Table.rows_set] at hr
    split_ifs at hr with hj
    · cases hr
      exact fun _ => hhidden
    · exact h.hidden j r hr

/-- The row of another company is written in both. -/
theorem Alike.set_both {db db' : Db} (h : Alike company user_id db db') {id : String}
    {record : Notification} (hcompany : record.company_id ≠ company) :
    Alike company user_id { db with notifications := db.notifications.set id record }
      { db' with notifications := db'.notifications.set id record } := by
  have hhidden : ∀ {db : Db}, Hidden company user_id db → Hidden company user_id
      { db with notifications := db.notifications.set id record } := by
    intro db hdb j r hr hc
    rw [Table.rows_set] at hr
    split_ifs at hr with hj
    · cases hr
      exact absurd hc hcompany
    · exact hdb j r hr hc
  refine ⟨fun j => ?_, h.states, hhidden h.hidden, hhidden h.hidden'⟩
  rw [Table.rows_set, Table.rows_set]
  split_ifs with hj
  · rfl
  · exact h.rows j

theorem find_recent_mem {db : Db} {notification : Notification} {now : Time} {id : String}
    {record : Notification}
    (h : _find_recent_notification_row db notification now = some (id, record)) :
    db.notifications.rows id = some record := by
  have hlast := List.mem_of_getLast? (Option.filter_eq_some_iff.1 h).1
  exact Table.mem_orderedBy.1 (List.mem_filter.1 hlast).1

/-- The last of a list that is in order comes after every other element. -/
theorem eq_or_rel_last {α : Type} {T : α → α → Prop} {l : List α} (hl : l.Pairwise T) {x y : α}
    (hx : x ∈ l) (hy : l.getLast? = some y) : x = y ∨ T x y := by
  obtain ⟨init, rfl⟩ := List.getLast?_eq_some_iff.1 hy
  rcases List.mem_append.1 hx with hx | hx
  · exact Or.inr ((List.pairwise_append.1 hl).2.2 x hx y List.mem_cons_self)
  · exact Or.inl (List.mem_singleton.1 hx)

/-- An event of another company that finds a recent row in one of them finds it in the other. -/
theorem Alike.found {db db' : Db} (h : Alike company user_id db db')
    {notification : Notification} {now : Time} {x : String × Notification}
    (hx : _find_recent_notification_row db notification now = some x)
    (hother : x.2.company_id ≠ company)
    (hfound' : ∀ row, _find_recent_notification_row db' notification now = some row →
      row.2.company_id ≠ company) :
    _find_recent_notification_row db' notification now = some x := by
  unfold _find_recent_notification_row at hx hfound' ⊢
  set same : String × Notification → Bool := fun row =>
    decide (row.2.dedup_key = notification.dedup_key) &&
    decide (row.2.resource_type = notification.resource_type) &&
    decide (row.2.resource_id = notification.resource_id) with hsame
  obtain ⟨hlast, hwindow⟩ := Option.filter_eq_some_iff.1 hx
  rw [decide_eq_true_eq] at hwindow
  have hmem : x ∈ (db'.notifications.orderedBy Notification.last_notified_at).filter same := by
    obtain ⟨hrow, hclauses⟩ := List.mem_filter.1 (List.mem_of_getLast? hlast)
    refine List.mem_filter.2 ⟨Table.mem_orderedBy.2 (h.row ?_ hother), hclauses⟩
    exact Table.mem_orderedBy.1 hrow
  obtain ⟨y, hy⟩ : ∃ y, ((db'.notifications.orderedBy Notification.last_notified_at).filter
      same).getLast? = some y := by
    rw [← Option.isSome_iff_exists, List.getLast?_isSome]
    exact List.ne_nil_of_mem hmem
  have horder' := eq_or_rel_last
    ((Table.pairwise_orderedBy db'.notifications Notification.last_notified_at).filter same) hmem hy
  have hnewer : x.2.last_notified_at ≤ y.2.last_notified_at := by
    rcases horder' with rfl | hxy
    · exact le_rfl
    · exact hxy.1
  have hrecent : (some y).filter (fun row => decide (now - row.2.last_notified_at ≤ _DUP_WINDOW)) =
      some y := by
    exact Option.filter_some_pos (decide_eq_true ((Nat.sub_le_sub_left hnewer now).trans hwindow))
  rw [hy, hrecent] at hfound' ⊢
  -- The row found there is one of this side too, so neither comes before the other.
  have hback : y ∈ (db.notifications.orderedBy Notification.last_notified_at).filter same := by
    obtain ⟨hrow, hclauses⟩ := List.mem_filter.1 (List.mem_of_getLast? hy)
    refine List.mem_filter.2 ⟨Table.mem_orderedBy.2 (h.symm.row ?_ (hfound' y rfl)), hclauses⟩
    exact Table.mem_orderedBy.1 hrow
  have horder := eq_or_rel_last
    ((Table.pairwise_orderedBy db.notifications Notification.last_notified_at).filter same) hback
    hlast
  rcases horder with rfl | hyx
  · rfl
  · rcases horder' with rfl | hxy
    · rfl
    · exact absurd (hxy.2 hyx.1) (lt_asymm (hyx.2 hxy.1))

theorem Alike.find_recent {db db' : Db} (h : Alike company user_id db db')
    {notification : Notification} {now : Time}
    (hfound : ∀ row, _find_recent_notification_row db notification now = some row →
      row.2.company_id ≠ company)
    (hfound' : ∀ row, _find_recent_notification_row db' notification now = some row →
      row.2.company_id ≠ company) :
    _find_recent_notification_row db notification now =
      _find_recent_notification_row db' notification now := by
  ext x
  constructor
  · exact fun hx => h.found hx (hfound x hx) hfound'
  · exact fun hx => h.symm.found hx (hfound' x hx) hfound

/-- What must hold where a call runs: an event merges into a row of its own company or of none,
an event of the company is addressed to others than the user, event ids are new, a list of the
user is not crowded out, and no row of the company is shown to the user who acknowledges it. -/
def Separate (company user_id : String) (db : Db) : Call → Prop
  | .emit_event event built_at now _ =>
    let notification := _build_notification_record event built_at
    (∀ row, _find_recent_notification_row db notification now = some row →
      (row.2.company_id = company ↔ event.companyId = company)) ∧
    (event.companyId = company → _is_visible notification user_id false = false) ∧
    (event.companyId ≠ company → ∀ record, db.notifications.rows event.eventId = some record →
      record.company_id ≠ company)
  | .list_notifications u filter => u = user_id → ScanIsWide company db filter
  | .summary u => u = user_id → ScanIsWide company db everything
  | .mark_all_read u severities category _ => u = user_id → ScanIsWide company db
    { everything with unread_only := true, severities := severities, category := category }
  | .ack_notification id u include_admin _ => u = user_id →
    ∀ record, db.notifications.rows id = some record → record.company_id = company →
      _is_visible record user_id include_admin = false
  | _ => True

theorem emit_of_recent {db : Db} {event : EventEnvelope} {built_at now merged_at : Time}
    {id : String} {merged : Notification} (h : _find_recent_notification_row db
      (_build_notification_record event built_at) now = some (id, merged)) :
    _emit_event_db db event built_at now merged_at = { db with
      notifications := db.notifications.set id { merged with
        occurrence_count := merged.occurrence_count + 1
        payload := _merge_payload merged.payload event.payload merged_at
        last_notified_at := now } } := by
  unfold _emit_event_db
  simp only [h]
  rfl

theorem emit_of_new {db : Db} {event : EventEnvelope} {built_at now merged_at : Time}
    (h : _find_recent_notification_row db (_build_notification_record event built_at) now =
      none) : _emit_event_db db event built_at now merged_at =
    if (db.notifications.rows event.eventId).isSome then db
    else { db with
      notifications :=
        db.notifications.set event.eventId (_build_notification_record event built_at) } := by
  unfold _emit_event_db
  simp only [h]

/-- An event of the company in one of the two runs. -/
theorem Alike.emit_left {db db' : Db} (h : Alike company user_id db db') {event : EventEnvelope}
    {built_at now merged_at : Time} (hcompany : event.companyId = company)
    (hseparate : Separate company user_id db (.emit_event event built_at now merged_at)) :
    Alike company user_id (_emit_event_db db event built_at now merged_at) db' := by
  obtain ⟨hmerge, hhidden, _⟩ := hseparate
  cases hfound : _find_recent_notification_row db (_build_notification_record event built_at)
      now with
  | some row =>
    obtain ⟨id, merged⟩ := row
    have hrow := find_recent_mem hfound
    have hmine : merged.company_id = company := (hmerge _ hfound).2 hcompany
    rw [emit_of_recent hfound]
    refine Alike.set_left h (fun record hrecord => ?_) ?_ ?_
    · rw [hrow] at hrecord
      cases hrecord
      exact hmine
    · exact hmine
    · exact h.hidden id merged hrow hmine
  | none =>
    rw [emit_of_new hfound]
    split_ifs with hexists
    · exact h
    · refine Alike.set_left h (fun record hrecord => ?_) ?_ (hhidden hcompany)
      · rw [hrecord] at hexists
        exact absurd rfl hexists
      · exact hcompany

/-- An event of another company in both runs. -/
theorem Alike.emit_both {db db' : Db} (h : Alike company user_id db db') {event : EventEnvelope}
    {built_at now merged_at : Time} (hcompany : event.companyId ≠ company)
    (hseparate : Separate company user_id db (.emit_event event built_at now merged_at))
    (hseparate' : Separate company user_id db' (.emit_event event built_at now merged_at)) :
    Alike company user_id (_emit_event_db db event built_at now merged_at)
      (_emit_event_db db' event built_at now merged_at) := by
  obtain ⟨hmerge, _, hfresh⟩ := hseparate
  obtain ⟨hmerge', _, hfresh'⟩ := hseparate'
  have hfound := h.find_recent (fun row hrow hc => hcompany ((hmerge row hrow).1 hc))
    (fun row hrow hc => hcompany ((hmerge' row hrow).1 hc))
  have hexists : (db.notifications.rows event.eventId).isSome =
      (db'.notifications.rows event.eventId).isSome := by
    rw [Bool.eq_iff_iff, Option.isSome_iff_exists, Option.isSome_iff_exists]
    constructor
    · rintro ⟨record, hrow⟩
      exact ⟨record, h.row hrow (hfresh hcompany record hrow)⟩
    · rintro ⟨record, hrow⟩
      exact ⟨record, h.symm.row hrow (hfresh' hcompany record hrow)⟩
  cases hrecent : _find_recent_notification_row db (_build_notification_record event built_at)
      now with
  | some row =>
    obtain ⟨id, merged⟩ := row
    rw [emit_of_recent hrecent, emit_of_recent (hfound.symm.trans hrecent)]
    refine Alike.set_both h ?_
    exact fun hc => hcompany ((hmerge _ hrecent).1 hc)
  | none =>
    rw [emit_of_new hrecent, emit_of_new (hfound.symm.trans hrecent), hexists]
    split_ifs
    · exact h
    · refine Alike.set_both h ?_
      exact hcompany

/-- The writes of a user, to his own states. -/
def Transaction.WritesOf (u : String) : Transaction → Prop
  | .write_read v _ _ => v = u
  | .write_archived v _ _ => v = u
  | _ => False

theorem Transaction.WritesOf.kept {u : String} {t : Transaction} (h : t.WritesOf u) (db : Db) :
    (t.commit db).notifications = db.notifications ∧ ∀ v ≠ u, ∀ id,
      (t.commit db).states.rows (id, v) = db.states.rows (id, v) := by
  cases t with
  | write_read w changed now =>
    obtain rfl : w = u := h
    obtain ⟨hnotifications, hother, _⟩ := rows_write_read w changed now db
    exact ⟨hnotifications, fun v hv id => hother id v (Or.inl hv)⟩
  | write_archived w changed now =>
    obtain rfl : w = u := h
    obtain ⟨hnotifications, hother, _⟩ := rows_write_archived w changed now db
    exact ⟨hnotifications, fun v hv id => hother id v (Or.inl hv)⟩
  | read => exact h.elim
  | emit => exact h.elim
  | ack => exact h.elim

/-- The same upserts on the same states of a user leave the same states. -/
theorem states_foldl_congr {f : Db → String → Db} {u : String}
    (hf : ∀ db db' c, (∀ id, db.states.rows (id, u) = db'.states.rows (id, u)) →
      ∀ id, (f db c).states.rows (id, u) = (f db' c).states.rows (id, u))
    (changed : List String) {db db' : Db}
    (h : ∀ id, db.states.rows (id, u) = db'.states.rows (id, u)) (id : String) :
    (changed.foldl f db).states.rows (id, u) = (changed.foldl f db').states.rows (id, u) := by
  induction changed generalizing db db' with
  | nil => exact h id
  | cons c changed ih => exact ih (hf db db' c h)

theorem Transaction.WritesOf.congr {u : String} {t : Transaction} (ht : t.WritesOf u) {db db' : Db}
    (h : ∀ id, db.states.rows (id, u) = db'.states.rows (id, u)) (id : String) :
    (t.commit db).states.rows (id, u) = (t.commit db').states.rows (id, u) := by
  cases t with
  | write_read w changed now =>
    refine states_foldl_congr (fun db db' c h id => ?_) changed h id
    unfold Db.writeRead
    rw [Table.rows_set, Table.rows_set, h id]
  | write_archived w changed now =>
    obtain rfl : w = u := ht
    refine states_foldl_congr (fun db db' c h id => ?_) changed h id
    unfold Db.writeArchived
    rw [Table.rows_set, Table.rows_set, h id, h c]
  | read => exact h id
  | emit => exact ht.elim
  | ack => exact ht.elim

theorem Alike.of_kept {db db' db₁ db₁' : Db} (h : Alike company user_id db db')
    (hnotifications : db₁.notifications = db.notifications)
    (hnotifications' : db₁'.notifications = db'.notifications)
    (hstates : ∀ id, db₁.states.rows (id, user_id) = db₁'.states.rows (id, user_id)) :
    Alike company user_id db₁ db₁' := by
  refine ⟨fun id => ?_, hstates, ?_, ?_⟩
  · rw [hnotifications, hnotifications']
    exact h.rows id
  · unfold Hidden
    rw [hnotifications]
    exact h.hidden
  · unfold Hidden
    rw [hnotifications']
    exact h.hidden'

theorem Wrote.kept {db : Db} {u : String} {x : Except Error (List String)}
    {write : List String → Transaction} (hwrite : ∀ changed, (write changed).WritesOf u)
    {after : Except Error Reply × Db} (h : Wrote db x write after) :
    after.2.notifications = db.notifications ∧ ∀ v ≠ u, ∀ id,
      after.2.states.rows (id, v) = db.states.rows (id, v) := by
  rw [h.2]
  cases x with
  | error e => exact ⟨rfl, fun _ _ _ => rfl⟩
  | ok changed => exact (hwrite changed).kept db

/-- A user reads or archives in both runs: who it is, and which targets he may write. -/
theorem Alike.wrote {db db' : Db} (h : Alike company user_id db db') {u : String}
    {status : Status} {validate validate' : String → Except Error NotificationEnvelope}
    (hvalidate : u = user_id → ∀ id, (validate id).toOption = (validate' id).toOption)
    {ids : List String} {write : List String → Transaction}
    (hwrite : ∀ changed, (write changed).WritesOf u) {after after' : Except Error Reply × Db}
    (hwrote : Wrote db (db.writes u status validate ids) write after)
    (hwrote' : Wrote db' (db'.writes u status validate' ids) write after') :
    Alike company user_id after.2 after'.2 := by
  refine h.of_kept (hwrote.kept hwrite).1 (hwrote'.kept hwrite).1 (fun id => ?_)
  by_cases hu : user_id = u
  · subst hu
    have hsame : (db.writes user_id status validate ids).toOption =
        (db'.writes user_id status validate' ids).toOption := by
      have hitems := Raise.toOption_mapM_congr (hvalidate rfl) ids.eraseDups
      unfold Db.writes
      simp only [h.states]
      revert hitems
      cases ids.eraseDups.mapM validate <;> cases ids.eraseDups.mapM validate' <;>
        intro hitems <;> cases hitems <;> rfl
    rw [hwrote.2, hwrote'.2, hsame]
    cases (db'.writes user_id status validate' ids).toOption with
    | none => exact h.states id
    | some changed => exact (hwrite changed).congr h.states id
  · rw [(hwrote.kept hwrite).2 user_id hu, (hwrote'.kept hwrite).2 user_id hu]
    exact h.states id

/-- An acknowledgement of a row of the company, or of none, in one of the two. -/
theorem Alike.ack_left {db db' : Db} (h : Alike company user_id db db') {id u : String}
    {include_admin : Bool} {now : Time}
    (hrow : ∀ record, db.notifications.rows id = some record → record.company_id = company) :
    Alike company user_id ((Transaction.ack id u include_admin now).commit db) db' := by
  cases hrecord : db.notifications.rows id with
  | none =>
    simp only [Transaction.commit, _ack_notification_db, hrecord]
    exact h
  | some record =>
    simp only [Transaction.commit, _ack_notification_db, hrecord]
    split_ifs
    · refine Alike.set_left h hrow ?_ ?_
      · exact hrow record hrecord
      · exact h.hidden id record hrecord (hrow record hrecord)
    · exact h

theorem Alike.ack {db db' : Db} (h : Alike company user_id db db') (id u : String)
    (include_admin : Bool) (now : Time) :
    Alike company user_id ((Transaction.ack id u include_admin now).commit db)
      ((Transaction.ack id u include_admin now).commit db') := by
  by_cases hmine : ∃ record, db.notifications.rows id = some record ∧ record.company_id ≠ company
  · obtain ⟨record, hrow, hother⟩ := hmine
    simp only [Transaction.commit, _ack_notification_db, hrow, h.row hrow hother]
    split_ifs
    · refine Alike.set_both h ?_
      exact hother
    · exact h
  · push Not at hmine
    refine (Alike.ack_left (h.ack_left hmine).symm (fun record hrow => ?_)).symm
    by_contra hother
    exact hother (hmine record (h.symm.row hrow hother))

theorem Alike.mark_read {db db' : Db} (h : Alike company user_id db db') (u : String)
    (ids : List String) (now : Time) : Alike company user_id
      ((Call.mark_read u ids now).perform db).2 ((Call.mark_read u ids now).perform db').2 := by
  have hwrite : ∀ changed, (Transaction.write_read u changed now).WritesOf u := fun _ => rfl
  refine h.wrote (fun hu id => ?_) hwrite (perform_mark_read u ids now db)
    (perform_mark_read u ids now db')
  subst hu
  exact h.opened id

theorem perform_mark_all_read_kept (u : String) (severities : List String)
    (category : Option String) (now : Time) (db : Db) :
    ((Call.mark_all_read u severities category now).perform db).2.notifications =
        db.notifications ∧ ∀ v ≠ u, ∀ id,
      ((Call.mark_all_read u severities category now).perform db).2.states.rows (id, v) =
        db.states.rows (id, v) := by
  rw [perform_mark_all_read]
  simp only
  split_ifs
  · exact ⟨rfl, fun _ _ _ => rfl⟩
  · have hwrite : ∀ changed, (Transaction.write_read u changed now).WritesOf u := fun _ => rfl
    exact (perform_mark_read u _ now db).kept hwrite

/-- The user lists, opens or counts his notifications. -/
def Call.Looks (u : String) : Call → Bool
  | list_notifications v _ => decide (v = u)
  | get_notification v _ => decide (v = u)
  | summary v => decide (v = u)
  | _ => false

/-- An event of the company. -/
def Call.OfCompany (company : String) : Call → Bool
  | emit_event event _ _ _ => decide (event.companyId = company)
  | _ => false

/-- One call in both runs: the tables stay alike, and the user gets the same answer. -/
theorem Alike.perform {db db' : Db} (h : Alike company user_id db db') {k : Call}
    (hk : k.OfCompany company = false) (hseparate : Separate company user_id db k)
    (hseparate' : Separate company user_id db' k) :
    Alike company user_id (k.perform db).2 (k.perform db').2 ∧
      (k.Looks user_id = true → (k.perform db).1.toOption = (k.perform db').1.toOption) := by
  cases k with
  | list_notifications u filter =>
    have hrun : ∀ db, (Call.list_notifications u filter).perform db =
        (.ok (.listed (db.listed u filter)), db) := by
      intro db
      exact (Session.run_map ..).trans (by rw [run_list_notifications]; rfl)
    rw [hrun, hrun]
    refine ⟨h, fun hlooks => ?_⟩
    obtain rfl := of_decide_eq_true hlooks
    rw [h.listed (hseparate rfl) (hseparate' rfl)]
  | get_notification u id =>
    have hrun : ∀ db, (Call.get_notification u id).perform db =
        ((db.opened u id).map .notification, db) := by
      intro db
      exact (Session.run_map ..).trans (by rw [run_get_notification])
    rw [hrun, hrun]
    refine ⟨h, fun hlooks => ?_⟩
    obtain rfl := of_decide_eq_true hlooks
    have hopened := h.opened id
    revert hopened
    cases db.opened u id <;> cases db'.opened u id <;> intro hopened <;> cases hopened <;> rfl
  | summary u =>
    have hrun : ∀ db, (Call.summary u).perform db =
        (.ok (.summary (summarize (db.listed u everything).notifications)), db) := by
      intro db
      refine (Session.run_map ..).trans ?_
      unfold summary
      rw [Session.run_bind, run_list_notifications]
      rfl
    rw [hrun, hrun]
    refine ⟨h, fun hlooks => ?_⟩
    obtain rfl := of_decide_eq_true hlooks
    rw [h.listed (hseparate rfl) (hseparate' rfl)]
  | mark_read u ids now =>
    exact ⟨h.mark_read u ids now, nofun⟩
  | mark_all_read u severities category now =>
    refine ⟨?_, nofun⟩
    by_cases hu : u = user_id
    · subst hu
      rw [perform_mark_all_read, perform_mark_all_read, h.listed (hseparate rfl) (hseparate' rfl)]
      simp only
      split_ifs
      · exact h
      · exact h.mark_read ..
    · have hkept := perform_mark_all_read_kept u severities category now
      refine h.of_kept (hkept db).1 (hkept db').1 (fun id => ?_)
      rw [(hkept db).2 user_id (Ne.symm hu), (hkept db').2 user_id (Ne.symm hu)]
      exact h.states id
  | archive u ids now =>
    have hwrite : ∀ changed, (Transaction.write_archived u changed now).WritesOf u := fun _ => rfl
    refine ⟨h.wrote (fun hu id => ?_) hwrite (perform_archive u ids now db)
      (perform_archive u ids now db'), nofun⟩
    subst hu
    exact h.get_db id
  | ack_notification id u include_admin now =>
    have hrun : ∀ db, ((Call.ack_notification id u include_admin now).perform db).2 =
        (Transaction.ack id u include_admin now).commit db :=
      fun db => congrArg Prod.snd (Session.run_map ..)
    rw [hrun, hrun]
    exact ⟨h.ack id u include_admin now, nofun⟩
  | emit_event event built_at now merged_at =>
    exact ⟨h.emit_both (of_decide_eq_false hk) hseparate hseparate', nofun⟩

/-! ### What the user can not touch -/

/-- The user sees the row. -/
def Db.Shown (db : Db) (user_id id : String) : Prop :=
  ∃ record, db.notifications.rows id = some record ∧ _is_visible record user_id false = true

theorem Hidden.not_shown {db : Db} (h : Hidden company user_id db) {id : String}
    {record : Notification} (hrow : db.notifications.rows id = some record)
    (hcompany : record.company_id = company) : ¬ db.Shown user_id id := by
  rintro ⟨record', hrow', hvisible⟩
  obtain rfl := Option.some.inj (hrow.symm.trans hrow')
  rw [h id record hrow hcompany] at hvisible
  cases hvisible

/-- A read notification is one that the user sees. -/
def Validates (db : Db) (user_id : String)
    (validate : String → Except Error NotificationEnvelope) : Prop :=
  ∀ id item, validate id = .ok item → item.notificationId = id ∧ db.Shown user_id id

theorem validates_get_db (db : Db) (user_id : String) :
    Validates db user_id (fun id => _get_notification_db db user_id id false) := by
  intro id item h
  obtain ⟨record, hrow, hvisible, rfl⟩ := get_db_eq_some.1 (congrArg Except.toOption h)
  exact ⟨rfl, record, hrow, hvisible⟩

theorem validates_opened (db : Db) (user_id : String) :
    Validates db user_id (db.opened user_id) := by
  intro id item h
  unfold Db.opened at h
  obtain ⟨found, hfound, h⟩ := Raise.bind_ok.1 h
  obtain ⟨hid, hshown⟩ := validates_get_db db user_id id found hfound
  simp only at h
  split_ifs at h
  cases h
  exact ⟨(apply_state_id ..).trans hid, hshown⟩

/-- A call that gets to its write has seen all its targets, and writes none but these. -/
theorem writes_shown {db : Db} {status : Status}
    {validate : String → Except Error NotificationEnvelope}
    (hvalidate : Validates db user_id validate) {ids changed : List String}
    (h : db.writes user_id status validate ids = .ok changed) :
    (∀ id ∈ ids, db.Shown user_id id) ∧ ∀ id ∈ changed, db.Shown user_id id := by
  unfold Db.writes at h
  obtain ⟨items, hitems, h⟩ := Raise.bind_ok.1 h
  cases h
  constructor
  · intro id hid
    obtain ⟨item, hok⟩ := Raise.all_of_mapM_ok hitems (List.mem_eraseDups.2 hid)
    exact (hvalidate id item hok).2
  · intro id hid
    obtain ⟨item, hitem, rfl⟩ := List.mem_map.1 (List.mem_of_mem_filter hid)
    obtain ⟨id, _, hok⟩ := Raise.exists_of_mapM_ok hitems hitem
    obtain ⟨heq, hshown⟩ := hvalidate id item hok
    rw [heq]
    exact hshown

/-- The call asks for the notification to be marked, archived or acknowledged. -/
def Call.Names (id : String) : Call → Prop
  | mark_read _ ids _ => id ∈ ids
  | archive _ ids _ => id ∈ ids
  | ack_notification notification_id _ _ _ => notification_id = id
  | _ => False

/-- The call of the user leaves the rows of the company and his states of them, and one that names
such a row raises. -/
def Refuses (company user_id : String) (db : Db) (k : Call) : Prop :=
  k.user_id = some user_id → ∀ id record, db.notifications.rows id = some record →
    record.company_id = company →
      (k.perform db).2.notifications.rows id = some record ∧
      (k.perform db).2.states.rows (id, user_id) = db.states.rows (id, user_id) ∧
      (k.Names id → (k.perform db).1.toOption = none)

/-- A call that reads or archives named notifications leaves what the user does not see. -/
theorem Wrote.refuses {db : Db} {status : Status}
    {validate : String → Except Error NotificationEnvelope}
    (hvalidate : Validates db user_id validate) {ids : List String}
    {write : List String → Transaction} {after : Except Error Reply × Db}
    (hwrite : ∀ changed, (write changed).WritesOf user_id ∧ ∀ id ∉ changed,
      ((write changed).commit db).states.rows (id, user_id) = db.states.rows (id, user_id))
    (h : Wrote db (db.writes user_id status validate ids) write after) {id : String}
    (hid : ¬ db.Shown user_id id) : after.2.notifications = db.notifications ∧
      after.2.states.rows (id, user_id) = db.states.rows (id, user_id) ∧
      (id ∈ ids → after.1.toOption = none) := by
  refine ⟨(h.kept (fun changed => (hwrite changed).1)).1, ?_, fun hmem => ?_⟩
  · rw [h.2]
    cases hchanged : db.writes user_id status validate ids with
    | error e => rfl
    | ok changed =>
      exact (hwrite changed).2 id (fun hmem => hid ((writes_shown hvalidate hchanged).2 id hmem))
  · rw [← Option.not_isSome_iff_eq_none, h.1]
    cases hchanged : db.writes user_id status validate ids with
    | error e => exact Bool.false_ne_true
    | ok changed => exact absurd ((writes_shown hvalidate hchanged).1 id hmem) hid

theorem mark_read_refuses {db : Db} (ids : List String) (now : Time) {id : String}
    (hid : ¬ db.Shown user_id id) :
    ((Call.mark_read user_id ids now).perform db).2.notifications = db.notifications ∧
    ((Call.mark_read user_id ids now).perform db).2.states.rows (id, user_id) =
      db.states.rows (id, user_id) ∧
    (id ∈ ids → ((Call.mark_read user_id ids now).perform db).1.toOption = none) := by
  have hwrite : ∀ changed, (Transaction.write_read user_id changed now).WritesOf user_id ∧
      ∀ id ∉ changed, ((Transaction.write_read user_id changed now).commit db).states.rows
        (id, user_id) = db.states.rows (id, user_id) :=
    fun changed => ⟨rfl, fun id hmem =>
      (rows_write_read user_id changed now db).2.1 id user_id (Or.inr hmem)⟩
  exact (perform_mark_read user_id ids now db).refuses (validates_opened db user_id) hwrite hid

theorem Hidden.refuses {db : Db} (h : Hidden company user_id db) {k : Call}
    (hseparate : Separate company user_id db k) : Refuses company user_id db k := by
  intro hk id record hrow hcompany
  have hid := h.not_shown hrow hcompany
  cases k with
  | list_notifications u filter =>
    have hrun : (Call.list_notifications u filter).perform db =
        (.ok (.listed (db.listed u filter)), db) :=
      (Session.run_map ..).trans (by rw [run_list_notifications]; rfl)
    rw [hrun]
    exact ⟨hrow, rfl, False.elim⟩
  | get_notification u id =>
    have hrun : ((Call.get_notification u id).perform db).2 = db :=
      (congrArg Prod.snd (Session.run_map ..)).trans (by rw [run_get_notification])
    rw [hrun]
    exact ⟨hrow, rfl, False.elim⟩
  | summary u =>
    have hrun : ((Call.summary u).perform db).2 = db := by
      refine (congrArg Prod.snd (Session.run_map ..)).trans ?_
      unfold summary
      rw [Session.run_bind, run_list_notifications]
      rfl
    rw [hrun]
    exact ⟨hrow, rfl, False.elim⟩
  | mark_read u ids now =>
    obtain rfl := Option.some.inj hk
    obtain ⟨hnotifications, hstates, hraises⟩ := mark_read_refuses ids now hid
    rw [hnotifications]
    exact ⟨hrow, hstates, hraises⟩
  | mark_all_read u severities category now =>
    obtain rfl := Option.some.inj hk
    rw [perform_mark_all_read]
    simp only
    split_ifs
    · exact ⟨hrow, rfl, False.elim⟩
    · obtain ⟨hnotifications, hstates, _⟩ := mark_read_refuses _ now hid
      rw [hnotifications]
      exact ⟨hrow, hstates, False.elim⟩
  | archive u ids now =>
    obtain rfl := Option.some.inj hk
    have hwrite : ∀ changed, (Transaction.write_archived u changed now).WritesOf u ∧
        ∀ id ∉ changed, ((Transaction.write_archived u changed now).commit db).states.rows
          (id, u) = db.states.rows (id, u) :=
      fun changed => ⟨rfl, fun id hmem =>
        (rows_write_archived u changed now db).2.1 id u (Or.inr hmem)⟩
    obtain ⟨hnotifications, hstates, hraises⟩ :=
      (perform_archive u ids now db).refuses (validates_get_db db u) hwrite hid
    rw [hnotifications]
    exact ⟨hrow, hstates, hraises⟩
  | ack_notification notification_id u include_admin now =>
    obtain rfl := Option.some.inj hk
    have hrun : (Call.ack_notification notification_id u include_admin now).perform db =
        ((_ack_notification_db db notification_id u include_admin now).map .notification,
          (Transaction.ack notification_id u include_admin now).commit db) := Session.run_map ..
    rw [hrun, states_ack]
    by_cases hsame : notification_id = id
    · subst hsame
      have hinvisible := hseparate rfl record hrow hcompany
      have hraises : _ack_notification_db db notification_id u include_admin now =
          .error (.permission_error "해당 알림을 읽음 처리할 권한이 없습니다.") := by
        simp only [_ack_notification_db, hrow, hinvisible, Bool.false_eq_true, if_false]
      simp only [Transaction.commit, hraises]
      exact ⟨hrow, trivial, fun _ => rfl⟩
    · refine ⟨?_, rfl, fun hnames => absurd hnames hsame⟩
      unfold Transaction.commit
      simp only
      split
      · rename_i item hitem
        have hitemId : item.notificationId = notification_id := by
          unfold _ack_notification_db at hitem
          split at hitem
          · cases hitem
          · split_ifs at hitem
            cases hitem
            rfl
        rw [hitemId]
        exact (Table.rows_set_ne _ _ (Ne.symm hsame)).trans hrow
      · exact hrow
  | emit_event => cases hk

end Alike

/-! ## Two runs -/

/-- A fact about each call of a run, in the tables that it finds. -/
def Along (P : Db → Call → Prop) : Db → List Call → Prop
  | _, [] => True
  | db, k :: calls => P db k ∧ Along P (k.perform db).2 calls

/-- What the lists, the details and the summaries of the user return, one after another. -/
def answers (user_id : String) : Db → List Call → List (Option Reply)
  | _, [] => []
  | db, k :: calls =>
    if k.Looks user_id then (k.perform db).1.toOption :: answers user_id (k.perform db).2 calls
    else answers user_id (k.perform db).2 calls

/-- The runs differ in the events of the company alone. -/
def DifferIn (company : String) (calls calls' : List Call) : Prop :=
  calls.filter (fun k => !k.OfCompany company) = calls'.filter (fun k => !k.OfCompany company)

theorem ofCompany_eq_emit {company : String} {k : Call} (hk : k.OfCompany company = true) :
    ∃ event built_at now merged_at, k = .emit_event event built_at now merged_at ∧
      event.companyId = company := by
  cases k with
  | emit_event event built_at now merged_at => exact ⟨_, _, _, _, rfl, of_decide_eq_true hk⟩
  | _ => cases hk

theorem answers_ofCompany {company user_id : String} {k : Call} (hk : k.OfCompany company = true)
    (db : Db) (calls : List Call) :
    answers user_id db (k :: calls) = answers user_id (k.perform db).2 calls := by
  obtain ⟨_, _, _, _, rfl, _⟩ := ofCompany_eq_emit hk
  rfl

theorem Alike.perform_left {company user_id : String} {db db' : Db}
    (h : Alike company user_id db db') {k : Call} (hk : k.OfCompany company = true)
    (hseparate : Separate company user_id db k) :
    Alike company user_id (k.perform db).2 db' := by
  obtain ⟨_, _, _, _, rfl, hcompany⟩ := ofCompany_eq_emit hk
  exact h.emit_left hcompany hseparate

/-- Alike tables give alike answers: the events of the company are passed over on either side, and
the other calls are made on both. -/
theorem Alike.answers {company user_id : String} {db db' : Db}
    (h : Alike company user_id db db') {calls calls' : List Call}
    (hseparate : Along (Separate company user_id) db calls)
    (hseparate' : Along (Separate company user_id) db' calls')
    (hdiffer : DifferIn company calls calls') :
    notification_center.answers user_id db calls = notification_center.answers user_id db' calls' := by
  unfold DifferIn at hdiffer
  induction calls generalizing db db' calls' with
  | nil =>
    induction calls' generalizing db' with
    | nil => rfl
    | cons k' calls' ih =>
      cases hk' : k'.OfCompany company with
      | false => simp [hk'] at hdiffer
      | true =>
        rw [answers_ofCompany hk']
        refine ih (h.symm.perform_left hk' hseparate'.1).symm hseparate'.2 ?_
        simpa [hk'] using hdiffer
  | cons k calls ih =>
    cases hk : k.OfCompany company with
    | true =>
      rw [answers_ofCompany hk]
      refine ih (h.perform_left hk hseparate.1) hseparate.2 hseparate' ?_
      simpa [hk] using hdiffer
    | false =>
      induction calls' generalizing db' with
      | nil => simp [hk] at hdiffer
      | cons k' calls' ih' =>
        cases hk' : k'.OfCompany company with
        | true =>
          rw [answers_ofCompany hk']
          refine ih' (h.symm.perform_left hk' hseparate'.1).symm hseparate'.2 ?_
          simpa [hk'] using hdiffer
        | false =>
          simp only [List.filter_cons, hk, hk', Bool.not_false, if_true, List.cons.injEq]
            at hdiffer
          obtain ⟨rfl, hrest⟩ := hdiffer
          obtain ⟨hafter, hanswer⟩ := h.perform hk hseparate.1 hseparate'.1
          have htail := ih hafter hseparate.2 hseparate'.2 hrest
          unfold notification_center.answers
          split_ifs with hlooks
          · rw [hanswer hlooks, htail]
          · exact htail

/-- The user goes on not to see the rows of the company. -/
theorem Hidden.perform {company user_id : String} {db : Db} (h : Hidden company user_id db)
    {k : Call} (hseparate : Separate company user_id db k) :
    Hidden company user_id (k.perform db).2 := by
  have halike : Alike company user_id db db := ⟨fun _ => rfl, fun _ => rfl, h, h⟩
  cases hk : k.OfCompany company with
  | true => exact (halike.perform_left hk hseparate).hidden
  | false => exact (halike.perform hk hseparate hseparate).1.hidden

theorem Hidden.along {company user_id : String} {db : Db} (h : Hidden company user_id db)
    {calls : List Call} (hseparate : Along (Separate company user_id) db calls) :
    Along (Refuses company user_id) db calls := by
  induction calls generalizing db with
  | nil => trivial
  | cons k calls ih =>
    exact ⟨h.refuses hseparate.1, ih (h.perform hseparate.1) hseparate.2⟩

def noNotifications : Db := ⟨.empty, .empty⟩

/-- Runs that differ in the events of a company, and keep to the condition, return the same to a
user, and he touches no notification of the company. -/
theorem notifications_stay_inside (company user_id : String) (calls calls' : List Call)
    (hdiffer : DifferIn company calls calls')
    (hseparate : Along (Separate company user_id) noNotifications calls)
    (hseparate' : Along (Separate company user_id) noNotifications calls') :
    answers user_id noNotifications calls = answers user_id noNotifications calls' ∧
      Along (Refuses company user_id) noNotifications calls ∧
      Along (Refuses company user_id) noNotifications calls' := by
  have hhidden : Hidden company user_id noNotifications := by
    intro id record hrow
    cases hrow
  have halike : Alike company user_id noNotifications noNotifications :=
    ⟨fun _ => rfl, fun _ => rfl, hhidden, hhidden⟩
  exact ⟨halike.answers hseparate hseparate' hdiffer, hhidden.along hseparate,
    hhidden.along hseparate'⟩

/-! ## An event of company `b`, and Alice of another one -/

/-- An event about the document `1` of the company. -/
def submitted (company : String) (targets : List String) : EventEnvelope where
  eventId := company
  companyId := company
  category := .approval
  severity := .INFO
  resourceType := "approval_document"
  resourceId := company
  dedupKey := "approval.submitted"
  occurredAt := 1
  createdAt := 1
  payload := []
  targets := targets
  visibility := .both
  details := notice.details

def emitted (company : String) (targets : List String) : Call :=
  .emit_event (submitted company targets) 1 1 1

/-- The number of notifications in an answer. -/
def Reply.size : Reply → Nat
  | listed response => response.notifications.length
  | _ => 0

theorem b_reaches_alice : ∃ calls calls', DifferIn "b" calls calls' ∧
    answers "alice" noNotifications calls ≠ answers "alice" noNotifications calls' ∧
    ¬ Along (Refuses "b" "alice") noNotifications calls := by
  refine ⟨[emitted "b" [], .list_notifications "alice" everything, .archive "alice" ["b"] 2],
    [.list_notifications "alice" everything, .archive "alice" ["b"] 2], rfl, fun hsame => ?_, ?_⟩
  · have hsizes := congrArg (List.map (Option.map Reply.size)) hsame
    revert hsizes
    decide +kernel
  · rintro ⟨_, _, hrefuses, _⟩
    have hraises := (hrefuses rfl "b" (_build_notification_record (submitted "b" []) 1) rfl
      rfl).2.2 List.mem_cons_self
    have hdone : ((Call.archive "alice" ["b"] 2).perform
        ((Call.list_notifications "alice" everything).perform
          ((emitted "b" []).perform noNotifications).2).2).1.toOption.isSome = true := by
      decide +kernel
    rw [hraises] at hdone
    cases hdone

theorem scanIsWide_of_length {company : String} {db : Db} {filter : ListFilter}
    (h : (db.matching filter.cursor false filter.severities filter.category).length ≤ 1000) :
    ScanIsWide company db filter := by
  unfold ScanIsWide
  rw [List.take_of_length_le h, List.take_of_length_le ((List.length_filter_le _ _).trans h)]

/-- Company `b` tells Bob, and company `a` tells Alice: she lists one notification, with or without
the event of `b`. -/
theorem alice_lists_her_own :
    let calls := [emitted "b" ["bob"], emitted "a" ["alice"],
      Call.list_notifications "alice" everything]
    let calls' := [emitted "a" ["alice"], Call.list_notifications "alice" everything]
    answers "alice" noNotifications calls = answers "alice" noNotifications calls' ∧
      (answers "alice" noNotifications calls').map (Option.map Reply.size) = [some 1] := by
  have hnew : ∀ {db : Db} {event : EventEnvelope}, (_find_recent_notification_row db
      (_build_notification_record event 1) 1).isNone = true → ∀ row,
        _find_recent_notification_row db (_build_notification_record event 1) 1 = some row →
          (row.2.company_id = "b" ↔ event.companyId = "b") := by
    intro db event hnone row hrow
    rw [hrow] at hnone
    cases hnone
  have hids : ∀ {db : Db} {id : String}, (db.notifications.rows id).isNone = true →
      ∀ record, db.notifications.rows id = some record → record.company_id ≠ "b" := by
    intro db id hnone record hrow
    rw [hrow] at hnone
    cases hnone
  intro calls calls'
  have hseparate : Along (Separate "b" "alice") noNotifications calls :=
    ⟨⟨hnew (by decide +kernel), fun _ => by decide +kernel, fun h => absurd rfl h⟩,
      ⟨hnew (by decide +kernel), fun h => absurd h (by decide +kernel),
        fun _ => hids (by decide +kernel)⟩,
      fun _ => scanIsWide_of_length (by decide +kernel), trivial⟩
  have hseparate' : Along (Separate "b" "alice") noNotifications calls' :=
    ⟨⟨hnew (by decide +kernel), fun h => absurd h (by decide +kernel),
        fun _ => hids (by decide +kernel)⟩,
      fun _ => scanIsWide_of_length (by decide +kernel), trivial⟩
  exact ⟨(notifications_stay_inside "b" "alice" calls calls' rfl hseparate hseparate').1,
    by decide +kernel⟩

end moaworks.notification_center
