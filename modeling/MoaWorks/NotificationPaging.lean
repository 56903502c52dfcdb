-- The list of notifications, page by page: the filters of a user come after a scan of the shared
-- table that takes at most a thousand rows.
import MoaWorks.Lib.Grouping
import MoaWorks.Lib.Paging
import MoaWorks.Lib.TableOrder
import MoaWorks.NotificationLaws

namespace moaworks.notification_center

/-! ## The query -/

/-- A row of `notifications` with its id. -/
abbrev NotificationRow := String × Notification

def NotificationRow.created (row : NotificationRow) : Time := row.2.created_at

/-- The WHERE clause of a list, up to the cursor. -/
def ListFilter.selects (filter : ListFilter) (row : NotificationRow) : Bool :=
  (filter.severities.isEmpty || decide (row.2.severity.value ∈ filter.severities)) &&
    (filter.category.filter (fun c => decide (c ≠ ""))).all
      (fun c => decide (row.2.category.value = c))

variable (db : Db) (user_id : String) (filter : ListFilter)

/-- The rows that a list looks at, whoever may see them. -/
def scanned : Multiset NotificationRow :=
  db.notifications.collect (fun id record =>
    if filter.selects (id, record) = true then some (id, record) else none)

/-- `ORDER BY created_at DESC LIMIT 1000`; rows of one time come in any order. -/
def Fetched (rows : List NotificationRow) : Prop :=
  ∃ all, Paging.IsListing NotificationRow.created
    (Paging.rest NotificationRow.created (scanned db filter) filter.cursor) all ∧
    rows = all.take 1000

/-- What `_list_notifications_db` makes of the rows. -/
def visibleRows (rows : List NotificationRow) : List NotificationEnvelope :=
  ((rows.map (fun row => NotificationEnvelope.mk row.1 row.2)).filter
    (fun item => _is_visible item.record user_id false)).take 1000

/-- The answer of `NotificationCenterService.list_notifications`, from the rows fetched. -/
def listed (rows : List NotificationRow) : NotificationListResponse :=
  let base := visibleRows user_id rows
  page filter base (fun id =>
    if id ∈ base.map NotificationEnvelope.notificationId then db.states.rows (id, user_id) else none)

/-- A call with some limit, what it shows and where the next one goes on. -/
def PageCall (allowed : Nat → Prop) (cursor : Option Time) (shown : List NotificationEnvelope)
    (next : Option Time) : Prop :=
  ∃ limit rows, allowed limit ∧ Fetched db { filter with cursor := cursor, limit := limit } rows ∧
    let response := listed db user_id { filter with cursor := cursor, limit := limit } rows
    shown = response.notifications ∧ next = if response.hasMore then response.nextCursor else none

/-! ## What should be shown -/

/-- The notification as the user sees it. -/
def current (row : NotificationRow) : NotificationEnvelope :=
  _apply_state ⟨row.1, row.2⟩ (db.states.rows (row.1, user_id))

/-- The rows that the user may see and that pass the filter. -/
def wanted : Multiset NotificationRow :=
  (scanned db filter).filter (fun row => _is_visible row.2 user_id false = true ∧
    filter.shows (current db user_id row) = true)

/-- The calls come to an end, and have then shown what is wanted, each notification once. -/
structure Complete : Prop where
  ends : Paging.Ends (PageCall db user_id filter (fun limit => 1 ≤ limit)) none
  answered : ∃ pages, Paging.Run (PageCall db user_id filter (fun limit => 1 ≤ limit)) none pages
  whole : ∀ pages, Paging.Run (PageCall db user_id filter (fun limit => 1 ≤ limit)) none pages →
    (pages.flatten : Multiset NotificationEnvelope) =
      (wanted db user_id filter).map (current db user_id)

/-- The row is among the first thousand, in whatever order its peers come. -/
def Within (rows : Multiset NotificationRow) (row : NotificationRow) : Prop :=
  (rows.filter (fun row' => row.created ≤ row'.created)).card ≤ 1000

/-- The notifications that the user has not read. -/
def unread : Multiset NotificationRow :=
  (wanted db user_id everything).filter (fun row =>
    (current db user_id row).record.status = .unread)

/-- The summary counts what is unread. -/
def Counts : Prop :=
  ∀ rows, Fetched db everything rows →
    (summarize (listed db user_id everything rows).notifications).unreadCount =
      (unread db user_id).card

/-! ## Pages of what is wanted -/

variable {db user_id filter}

theorem nodup_scanned : (scanned db filter).Nodup := by
  refine Multiset.Nodup.of_map Prod.fst (Table.nodup_map_collect (fun id record row hrow => ?_))
  obtain ⟨-, heq⟩ := Option.ite_none_right_eq_some.mp hrow
  rw [← Option.some.inj heq]

/-- What the rows that were fetched show. -/
def shownRows (db : Db) (user_id : String) (filter : ListFilter) (rows : List NotificationRow) :
    List NotificationRow :=
  rows.filter (fun row => decide (_is_visible row.2 user_id false = true ∧
    filter.shows (current db user_id row) = true))

/-- The state of a user says nothing about the time. -/
theorem current_created (row : NotificationRow) :
    (current db user_id row).record.created_at = row.created := by
  unfold current
  rcases db.states.rows (row.1, user_id) with _ | state
  · rfl
  · rfl

theorem visibleRows_eq {rows : List NotificationRow} (hshort : rows.length ≤ 1000) :
    visibleRows user_id rows = (rows.filter (fun row => _is_visible row.2 user_id false)).map
      (fun row => NotificationEnvelope.mk row.1 row.2) := by
  unfold visibleRows
  rw [List.filter_map, List.take_of_length_le]
  · rfl
  · rw [List.length_map]
    exact Nat.le_trans (List.length_filter_le _ _) hshort

theorem listed_eq {rows : List NotificationRow} (hshort : rows.length ≤ 1000) :
    listed db user_id filter rows =
      { notifications := ((shownRows db user_id filter rows).take filter.limit).map
          (current db user_id)
        nextCursor := ((shownRows db user_id filter rows).take filter.limit).getLast?.map
          NotificationRow.created
        hasMore := decide (filter.limit < (shownRows db user_id filter rows).length) } := by
  have hstates : ∀ row ∈ rows.filter (fun row => _is_visible row.2 user_id false),
      _apply_state ⟨row.1, row.2⟩ (if row.1 ∈ (visibleRows user_id rows).map
        NotificationEnvelope.notificationId then db.states.rows (row.1, user_id) else none) =
      current db user_id row := by
    intro row hrow
    rw [if_pos]
    · rfl
    · rw [visibleRows_eq hshort, List.map_map]
      exact List.mem_map.mpr ⟨row, hrow, rfl⟩
  have hvisible : ((visibleRows user_id rows).map (fun item => _apply_state item
      (if item.notificationId ∈ (visibleRows user_id rows).map NotificationEnvelope.notificationId
        then db.states.rows (item.notificationId, user_id) else none))).filter filter.shows =
      (shownRows db user_id filter rows).map (current db user_id) := by
    conv_lhs => rw [visibleRows_eq hshort, List.map_map]
    rw [List.map_congr_left (g := current db user_id), List.filter_map, List.filter_filter]
    · unfold shownRows
      refine congrArg (List.map (current db user_id)) (List.filter_congr (fun row _ => ?_))
      rw [Bool.decide_and, Bool.and_comm]
      simp
    · intro row hrow
      rw [← visibleRows_eq hshort]
      exact hstates row hrow
  have hlast : ∀ rows' : List NotificationRow, (rows'.map (current db user_id)).getLast?.map
      (fun item => item.record.created_at) = rows'.getLast?.map NotificationRow.created := by
    intro rows'
    rw [List.getLast?_map, Option.map_map]
    exact congrArg (fun f => Option.map f rows'.getLast?) (funext current_created)
  unfold listed page
  dsimp only
  rw [hvisible, ← List.map_take, hlast, List.length_map, List.length_map, List.length_take]
  congr 1
  refine decide_eq_decide.mpr ?_
  omega

/-- What is within the window is not left out by it. -/
theorem shown_of_within (hwithin : ∀ row ∈ wanted db user_id filter, Within (scanned db filter) row)
    {cursor : Option Time} {all : List NotificationRow}
    (hall : Paging.IsListing NotificationRow.created
      (Paging.rest NotificationRow.created (scanned db filter) cursor) all) :
    Paging.IsListing NotificationRow.created
      (Paging.rest NotificationRow.created (wanted db user_id filter) cursor)
      (shownRows db user_id filter (all.take 1000)) := by
  have hdropped : (all.drop 1000).filter (fun row => decide (_is_visible row.2 user_id false = true ∧
      filter.shows (current db user_id row) = true)) = [] := by
    rw [List.filter_eq_nil_iff]
    intro row hrow hwanted
    have hscanned : row ∈ Paging.rest NotificationRow.created (scanned db filter) cursor := by
      rw [← hall.1]
      exact Multiset.mem_coe.mpr (List.mem_of_mem_drop hrow)
    have hmem : row ∈ wanted db user_id filter :=
      Multiset.mem_filter.mpr ⟨Multiset.mem_of_le (Paging.rest_le _ _) hscanned,
        of_decide_eq_true hwanted⟩
    have hcount := Paging.count_of_dropped hall hrow
    have hless : ((Paging.rest NotificationRow.created (scanned db filter) cursor).filter
        (fun row' => row.created ≤ row'.created)).card ≤
        ((scanned db filter).filter (fun row' => row.created ≤ row'.created)).card :=
      Multiset.card_le_card (Multiset.filter_le_filter _ (Paging.rest_le _ _))
    exact absurd (Nat.lt_of_lt_of_le hcount hless) (Nat.not_lt.mpr (hwithin row hmem))
  have heq : shownRows db user_id filter (all.take 1000) = shownRows db user_id filter all := by
    unfold shownRows
    conv_rhs => rw [← List.take_append_drop 1000 all, List.filter_append, hdropped, List.append_nil]
  have hcomm : Paging.rest NotificationRow.created (wanted db user_id filter) cursor =
      (Paging.rest NotificationRow.created (scanned db filter) cursor).filter
        (fun row => _is_visible row.2 user_id false = true ∧
          filter.shows (current db user_id row) = true) := by
    unfold wanted Paging.rest
    rw [Multiset.filter_comm]
  rw [heq, hcomm]
  exact hall.filter _

variable {allowed : Nat → Prop}

theorem pages_of_call (hwithin : ∀ row ∈ wanted db user_id filter, Within (scanned db filter) row)
    (cursor : Option Time) (shown : List NotificationEnvelope) (next : Option Time)
    (h : PageCall db user_id filter allowed cursor shown next) : ∃ page,
      Paging.Pages NotificationRow.created (wanted db user_id filter) allowed cursor page next ∧
      shown = page.map (current db user_id) := by
  obtain ⟨limit, rows, hallowed, ⟨all, hall, rfl⟩, hanswer⟩ := h
  have hshort : (all.take 1000).length ≤ 1000 := by
    rw [List.length_take]
    exact Nat.min_le_left _ _
  rw [listed_eq hshort] at hanswer
  obtain ⟨rfl, rfl⟩ := hanswer
  refine ⟨_, ⟨limit, _, hallowed, shown_of_within hwithin hall, rfl, ?_⟩, rfl⟩
  simp only [decide_eq_true_eq]
  rfl

theorem call_total (hsome : ∃ limit, allowed limit) (cursor : Option Time) :
    ∃ shown next, PageCall db user_id filter allowed cursor shown next := by
  obtain ⟨limit, hallowed⟩ := hsome
  obtain ⟨all, hall⟩ : ∃ all, Paging.IsListing NotificationRow.created
      (Paging.rest NotificationRow.created (scanned db filter) cursor) all := Paging.exists_listing _
  exact ⟨_, _, limit, all.take 1000, hallowed, ⟨all, hall, rfl⟩, rfl, rfl⟩

theorem call_ends (hpos : ∀ limit, allowed limit → 0 < limit)
    (hwithin : ∀ row ∈ wanted db user_id filter, Within (scanned db filter) row) :
    Paging.Ends (PageCall db user_id filter allowed) none :=
  Paging.ends_map (pages_of_call hwithin) (Paging.pages_end hpos none)

/-! ## Completeness -/

theorem flatten_current (pages : List (List NotificationRow)) :
    ((pages.map (fun page => page.map (current db user_id))).flatten :
      Multiset NotificationEnvelope) =
      (pages.flatten : Multiset NotificationRow).map (current db user_id) := by
  rw [Multiset.map_coe, List.map_flatten]

theorem complete_of_within
    (hwithin : ∀ row ∈ wanted db user_id filter, Within (scanned db filter) row)
    (hdistinct : (Paging.times NotificationRow.created (wanted db user_id filter)).Nodup) :
    Complete db user_id filter where
  ends := call_ends (fun _ h => h) hwithin
  answered := Paging.exists_run (call_total ⟨1, Nat.le_refl 1⟩) (call_ends (fun _ h => h) hwithin)
  whole := by
    intro pages hrun
    obtain ⟨rows, hrows, rfl⟩ := Paging.run_map (pages_of_call hwithin) hrun
    rw [flatten_current, Paging.run_complete (fun _ h => h) hdistinct hrows, Paging.rest_none]

/-- A call without a next one shows all that is wanted. -/
theorem within_of_complete (h : Complete db user_id filter) :
    ∀ row ∈ wanted db user_id filter, Within (scanned db filter) row := by
  intro row hrow
  by_contra hout
  obtain ⟨all, hall, hdropped⟩ :=
    Paging.exists_listing_without nodup_scanned (Nat.lt_of_not_le hout)
  have hshort : (all.take 1000).length ≤ 1000 := by
    rw [List.length_take]
    exact Nat.min_le_left _ _
  have hfetched : Fetched db { filter with cursor := none, limit := 1000 } (all.take 1000) :=
    ⟨all, by rw [Paging.rest_none]; exact hall, rfl⟩
  have hfew : (shownRows db user_id filter (all.take 1000)).length ≤ 1000 :=
    Nat.le_trans (List.length_filter_le _ _) hshort
  have hcall : PageCall db user_id filter (fun limit => 1 ≤ limit) none
      ((shownRows db user_id filter (all.take 1000)).map (current db user_id)) none := by
    refine ⟨1000, all.take 1000, by decide, hfetched, ?_⟩
    rw [listed_eq hshort]
    refine ⟨?_, ?_⟩
    · change _ = ((shownRows db user_id filter (all.take 1000)).take 1000).map _
      rw [List.take_of_length_le hfew]
    · exact (if_neg (by
        simp only [decide_eq_true_eq]
        exact Nat.not_lt.mpr hfew)).symm
  have hwhole := congrArg Multiset.card (h.whole _ (.last hcall))
  rw [List.flatten_singleton, Multiset.card_map, Multiset.coe_card, List.length_map] at hwhole
  have hle : (shownRows db user_id filter (all.take 1000) : Multiset NotificationRow) ≤
      wanted db user_id filter := by
    have hsub := (List.take_sublist 1000 all).filter (fun row => decide
      (_is_visible row.2 user_id false = true ∧ filter.shows (current db user_id row) = true))
    refine le_trans (Multiset.coe_le.mpr hsub.subperm) ?_
    rw [← Multiset.filter_coe, hall.1]
    exact le_refl _
  have heq := Multiset.eq_of_le_of_card_le hle (by rw [Multiset.coe_card]; exact hwhole.ge)
  rw [← heq] at hrow
  exact hdropped (List.mem_filter.mp (Multiset.mem_coe.mp hrow)).1

/-- With one notification a page, two of one time cannot both be shown. -/
theorem distinct_of_complete (h : Complete db user_id filter) :
    (Paging.times NotificationRow.created (wanted db user_id filter)).Nodup := by
  have hwithin := within_of_complete h
  have hpos : ∀ limit, limit = 1 → 0 < limit := fun limit hlimit => hlimit ▸ Nat.one_pos
  have htotal : ∀ cursor, ∃ shown next,
      PageCall db user_id filter (fun limit => limit = 1) cursor shown next := call_total ⟨1, rfl⟩
  obtain ⟨pages, hrun⟩ := Paging.exists_run htotal (call_ends hpos hwithin)
  have hwhole := h.whole pages (hrun.mono (fun cursor shown next hcall => by
    obtain ⟨limit, rows, rfl, hrest⟩ := hcall
    exact ⟨1, rows, Nat.le_refl 1, hrest⟩))
  obtain ⟨rows, hrows, rfl⟩ := Paging.run_map (pages_of_call hwithin) hrun
  rw [flatten_current] at hwhole
  have hcard := congrArg Multiset.card hwhole
  rw [Multiset.card_map, Multiset.card_map] at hcard
  have hle := Paging.run_le hpos hrows
  rw [Paging.rest_none] at hle
  refine Paging.times_distinct hpos hrows ?_ (Multiset.eq_of_le_of_card_le hle hcard.ge)
  refine hrows.forall (fun cursor page next hpage => ?_)
  obtain ⟨limit, l, rfl, -, rfl, -⟩ := hpage
  rw [List.length_take]
  exact Nat.min_le_left _ _

/-! ## The summary -/

/-- What a summary counts. -/
theorem unreadCount_eq {all : List NotificationRow} :
    (summarize (listed db user_id everything (all.take 1000)).notifications).unreadCount =
      ((shownRows db user_id everything (all.take 1000)).filter (fun row =>
        decide ((current db user_id row).record.status = .unread))).length := by
  have hshort : (all.take 1000).length ≤ 1000 := by
    rw [List.length_take]
    exact Nat.min_le_left _ _
  have hfew : (shownRows db user_id everything (all.take 1000)).length ≤ everything.limit :=
    Nat.le_trans (List.length_filter_le _ _) hshort
  rw [listed_eq hshort, List.take_of_length_le hfew]
  unfold summarize
  rw [List.filter_map, List.length_map]
  rfl

/-- What of the rows the user has not read. -/
def unreadRows (db : Db) (user_id : String) (rows : List NotificationRow) : List NotificationRow :=
  (shownRows db user_id everything rows).filter (fun row =>
    decide ((current db user_id row).record.status = .unread))

theorem unreadRows_all {all : List NotificationRow}
    (hall : (all : Multiset NotificationRow) = scanned db everything) :
    (unreadRows db user_id all : Multiset NotificationRow) = unread db user_id := by
  unfold unreadRows shownRows unread wanted
  rw [← hall, Multiset.filter_coe, Multiset.filter_coe]

theorem unreadRows_append (rows rows' : List NotificationRow) :
    unreadRows db user_id (rows ++ rows') =
      unreadRows db user_id rows ++ unreadRows db user_id rows' := by
  unfold unreadRows shownRows
  rw [List.filter_append, List.filter_append]

theorem counts_iff :
    Counts db user_id ↔ ∀ row ∈ unread db user_id, Within (scanned db everything) row := by
  constructor
  · intro h row hrow
    by_contra hout
    obtain ⟨all, hall, hdropped⟩ :=
      Paging.exists_listing_without nodup_scanned (Nat.lt_of_not_le hout)
    have hcount := h (all.take 1000) ⟨all, by
      change Paging.IsListing _ (Paging.rest _ _ none) all
      rwa [Paging.rest_none], rfl⟩
    rw [unreadCount_eq, ← unreadRows_all hall.1, Multiset.coe_card,
      ← List.take_append_drop 1000 all, unreadRows_append, List.length_append,
      List.take_append_drop] at hcount
    change (unreadRows db user_id (all.take 1000)).length = _ at hcount
    have hnone : (unreadRows db user_id (all.drop 1000)).length = 0 := by omega
    rw [← unreadRows_all hall.1, ← List.take_append_drop 1000 all, unreadRows_append,
      List.length_eq_zero_iff.mp hnone, List.append_nil, Multiset.mem_coe] at hrow
    exact hdropped (List.mem_of_mem_filter (List.mem_of_mem_filter hrow))
  · rintro h rows ⟨all, hall, rfl⟩
    change Paging.IsListing _ (Paging.rest _ _ none) all at hall
    rw [Paging.rest_none] at hall
    have hnone : unreadRows db user_id (all.drop 1000) = [] := by
      rw [List.eq_nil_iff_forall_not_mem]
      intro row hrow
      have hmem : row ∈ unread db user_id := by
        rw [← unreadRows_all hall.1, ← List.take_append_drop 1000 all, unreadRows_append,
          Multiset.mem_coe]
        exact List.mem_append_right _ hrow
      have hdrop : row ∈ all.drop 1000 := List.mem_of_mem_filter (List.mem_of_mem_filter hrow)
      exact absurd (Paging.count_of_dropped hall hdrop) (Nat.not_lt.mpr (h row hmem))
    rw [unreadCount_eq, ← unreadRows_all hall.1, Multiset.coe_card,
      ← List.take_append_drop 1000 all, unreadRows_append, hnone, List.append_nil,
      List.take_append_drop]
    rfl

/-- The calls show each wanted notification once, whatever their limits, exactly when each is among
the first thousand rows of the scan and no two have one time; the summary counts the unread ones
exactly when each of these is among the first thousand. -/
theorem notifications_are_paged_once_iff (db : Db) (user_id : String) (filter : ListFilter) :
    (Complete db user_id filter ↔
      (∀ row ∈ wanted db user_id filter, Within (scanned db filter) row) ∧
        (Paging.times NotificationRow.created (wanted db user_id filter)).Nodup) ∧
    (Counts db user_id ↔ ∀ row ∈ unread db user_id, Within (scanned db everything) row) :=
  ⟨⟨fun h => ⟨within_of_complete h, distinct_of_complete h⟩, fun h => complete_of_within h.1 h.2⟩,
    counts_iff⟩

/-- Two notices of one instant for Alice. -/
def twoNotices : Db := ⟨(Table.empty.set "n1" notice).set "n2" notice, .empty⟩

/-- One of them is never shown when each page has one. -/
theorem a_simultaneous_notice_is_lost : ¬ Complete twoNotices "alice" everything := by
  intro h
  have hnodup := distinct_of_complete h
  unfold Paging.times at hnodup
  rw [← Multiset.coe_nodup, Multiset.sort_eq] at hnodup
  exact absurd hnodup (by decide +kernel)

end moaworks.notification_center
