-- What the transactions of the calendars rely on between their statements, and the runs in which
-- they overlap.
import MoaWorks.CalendarLaws

namespace moaworks.calendars

open Discipline
open workspace (AuthUserSummary Status)

variable {user : AuthUserSummary} {held : Set Key} {s s' db : Db} {c current : Calendar}
  {user_id calendar_id : String} {ids : List String} {sub : Subscription}
  {payload : CalendarUpdatePayload}

/-! ## The lock of an owner -/

/-- The user is locked, and his row is the one that his session knows. -/
structure Locked (user : AuthUserSummary) (held : Set Key) (s : Db) : Prop where
  key : .user user.userId ∈ held
  member : Member s user.userId user.companyId
  inv : Inv s

theorem Locked.later (h : Locked user held s) (hrely : Rely held s s') (hinv : Inv s') :
    Locked user held s' :=
  ⟨h.key, h.member.same (hrely.users _), hinv⟩

theorem Locked.more {more : Set Key} (h : Locked user held s) (hsub : held ⊆ more) :
    Locked user more s :=
  ⟨hsub h.key, h.member, h.inv⟩

/-- A calendar of a locked user stays as it is. -/
theorem Locked.row (h : Locked user held s) (hrely : Rely held s s') {id : String}
    (howned : owned user.userId c = true) :
    s'.calendars.rows id = some c ↔ s.calendars.rows id = some c :=
  hrely.calendars _ h.key id c (owned_iff.1 howned).1

theorem meets_lock_owner {Q : Unit → Set Key → Db → Prop} (h : ∀ s', Rely held s s' →
      Locked user (insert (.user user.userId) held) s' → Q () (insert (.user user.userId) held) s') :
    discipline.Meets Q (_lock_calendar_owner user) held s := by
  unfold _lock_calendar_owner
  refine meets_bind.2 (meets_selectForUpdate fun s' hrely hinv => ?_)
  refine meets_bind.2 (meets_found fun row hrow => ?_)
  refine meets_require fun hc => ?_
  exact h s' hrely ⟨Set.mem_insert _ _, ⟨row, hrow, hc.1⟩, hinv⟩

/-! ## The default calendar -/

theorem defaultOf_some {id : String} (h : defaultOf db user_id = some (id, c)) :
    db.calendars.rows id = some c ∧ owned user_id c = true := by
  have hmem := List.mem_of_head? h
  rw [List.mem_filter, Table.mem_orderedBy, Bool.and_eq_true] at hmem
  exact ⟨hmem.1, hmem.2.1⟩

theorem defaultOf_none (h : defaultOf db user_id = none) :
    ∀ k c, db.calendars.rows k = some c → owned user_id c = true → c.is_default = false := by
  intro k c hc howned
  by_contra hdefault
  have hnone : (db.calendars.orderedBy Calendar.created_at).filter (fun row =>
      owned user_id row.2 && row.2.is_default) = [] := List.head?_eq_none_iff.1 h
  have hmem : (k, c) ∈ (db.calendars.orderedBy Calendar.created_at).filter (fun row =>
      owned user_id row.2 && row.2.is_default) := by
    rw [List.mem_filter, Table.mem_orderedBy, Bool.and_eq_true]
    exact ⟨hc, howned, by simpa using hdefault⟩
  rw [hnone] at hmem
  exact absurd hmem List.not_mem_nil

/-- The writes that have been prepared: whenever they are committed, the calendar is the user's. -/
structure Resolves (user : AuthUserSummary) (e : Ensured) (held : Set Key) (s : Db) : Prop where
  locked : Locked user held s
  writes : ∀ s', Rely held s s' → Inv s' → ∀ s'', e.written s' = some s'' →
    Inv s'' ∧ Guarded held s' s'' ∧
      (∃ c, s''.calendars.rows e.id = some c ∧ owned user.userId c = true) ∧
      s''.users = s'.users ∧ s''.subscriptions = s'.subscriptions ∧ s''.events = s'.events

/-- What `_ensure_default_calendar` has prepared. The other calendars of the user stay his. -/
structure Ensures (user : AuthUserSummary) (e : Ensured) (held : Set Key) (s : Db) : Prop
    extends Resolves user e held s where
  keeps : ∀ s1, Rely held s s1 → Inv s1 → ∀ k c, ((e.written s1).getD s1).calendars.rows k = some c →
    owned user.userId c = true → ∀ s', Rely held s1 s' → Inv s' → ∀ s'', e.written s' = some s'' →
      ∃ c', s''.calendars.rows k = some c' ∧ owned user.userId c' = true

theorem ensures_found (h : Locked user held s) {id : String} (hrow : s.calendars.rows id = some c)
    (howned : owned user.userId c = true) : Ensures user ⟨id, some⟩ held s where
  locked := h
  writes := fun s' hrely hinv s'' hwrite => by
    cases hwrite
    exact ⟨hinv, guarded_refl held s', ⟨c, (h.row hrely howned).2 hrow, howned⟩, rfl, rfl, rfl⟩
  keeps := fun s1 hrely hinv k c hc hk s' hrely' _ s'' hwrite => by
    cases hwrite
    exact ⟨c, ((h.later hrely hinv).row hrely' hk).2 hc, hk⟩

theorem ensures_made (h : Locked user held s) {id : String} (hrow : s.calendars.rows id = some c)
    (howned : owned user.userId c = true)
    (hnone : ∀ k c, s.calendars.rows k = some c → owned user.userId c = true →
      c.is_default = false) :
    Ensures user ⟨id, fun db => some (db.updateCalendars (fun k _ => decide (k = id)) madeDefault)⟩
      held s where
  locked := h
  writes := fun s' hrely hinv s'' hwrite => by
    cases hwrite
    have hrow' : s'.calendars.rows id = some c := (h.row hrely howned).2 hrow
    refine ⟨hinv.madeDefault hrow' howned ?_, guarded_update (fun _ => rfl) ?_,
      ⟨madeDefault c, ?_, howned⟩, rfl, rfl, rfl⟩
    · intro k c' hc' howned'
      exact hnone k c' ((h.row hrely howned').1 hc') howned'
    · intro k c' hc' hk
      rw [of_decide_eq_true hk, hrow'] at hc'
      cases hc'
      rw [(owned_iff.1 howned).1]
      exact h.key
    · unfold Db.updateCalendars
      rw [Table.rows_update, hrow', Option.map_some, if_pos (decide_eq_true rfl)]
  keeps := fun s1 hrely hinv k c' hc' hk s' hrely' hinv' s'' hwrite => by
    cases hwrite
    have hplace : ∀ t : Table String Calendar, Alike SamePlace t
        (t.update (fun k _ => decide (k = id)) madeDefault) := fun t =>
      alike_update SamePlace.refl t _ (fun _ => ⟨rfl, rfl, rfl⟩)
    obtain ⟨r, hr, hsame⟩ := (hplace s1.calendars).new k c' hc'
    have hr' : owned user.userId r = true := (hsame.owned _).symm.trans hk
    obtain ⟨r', hr'', hsame'⟩ := (hplace s'.calendars).old k r
      (((h.later hrely hinv).row hrely' hr').2 hr)
    exact ⟨r', hr'', (hsame'.owned _).trans hr'⟩

theorem ensures_inserted (h : Locked user held s) (id : String) (now : Time) :
    Ensures user ⟨id, Db.insertCalendar id (firstCalendar user now)⟩ held s where
  locked := h
  writes := fun s' hrely hinv s'' hwrite => by
    obtain ⟨-, -, rfl⟩ := insertCalendar_ok hwrite
    refine ⟨hinv.insertCalendar hwrite (h.later hrely hinv).member (.inl rfl),
      guarded_insertCalendar hwrite h.key, ⟨firstCalendar user now, Table.rows_set_self .., ?_⟩,
      rfl, rfl, rfl⟩
    exact owned_iff.2 ⟨rfl, rfl⟩
  keeps := fun s1 hrely hinv k c hc hk s' hrely' _ s'' hwrite => by
    obtain ⟨-, -, rfl⟩ := insertCalendar_ok hwrite
    by_cases hid : k = id
    · subst hid
      exact ⟨firstCalendar user now, Table.rows_set_self .., owned_iff.2 ⟨rfl, rfl⟩⟩
    · refine ⟨c, (Table.rows_set_ne _ _ hid).trans (((h.later hrely hinv).row hrely' hk).2 ?_), hk⟩
      cases hinsert : Db.insertCalendar id (firstCalendar user now) s1 with
      | none => simpa [hinsert] using hc
      | some s2 =>
        obtain ⟨-, -, rfl⟩ := insertCalendar_ok hinsert
        simp only [hinsert, Option.getD_some] at hc
        exact (Table.rows_set_ne _ _ hid).symm.trans hc

theorem meets_insertDefault {now : Time} {Q : Ensured → Set Key → Db → Prop}
    (hl : Locked user held s) (h : ∀ e s', Ensures user e held s' → Q e held s') :
    discipline.Meets Q (insertDefault user calendar_id now) held s := by
  unfold insertDefault
  refine meets_bind.2 (meets_select fun s1 hrely hinv => ?_)
  have hl1 := hl.later hrely hinv
  cases Db.insertCalendar calendar_id (firstCalendar user now) s1 with
  | some _ => exact h _ s1 (ensures_inserted hl1 calendar_id now)
  | none =>
    refine meets_bind.2 (meets_select fun s2 hrely' hinv' => ?_)
    refine meets_bind.2 (meets_found fun found hfound => ?_)
    obtain ⟨hrow, howned⟩ := defaultOf_some hfound
    exact h _ s2 (ensures_found (hl1.later hrely' hinv') hrow howned)

theorem meets_ensure {now : Time} {Q : Ensured → Set Key → Db → Prop}
    (h : ∀ e held' s', Ensures user e held' s' → Q e held' s') :
    discipline.Meets Q (_ensure_default_calendar user calendar_id now) held s := by
  unfold _ensure_default_calendar
  refine meets_bind.2 (meets_lock_owner fun s1 _ hl => ?_)
  refine meets_bind.2 (meets_select fun s2 hrely2 hinv2 => ?_)
  have hl2 := hl.later hrely2 hinv2
  cases hdefault : defaultOf s2 user.userId with
  | some found =>
    obtain ⟨hrow, howned⟩ := defaultOf_some hdefault
    exact h _ _ s2 (ensures_found hl2 hrow howned)
  | none =>
    refine meets_bind.2 (meets_select fun s3 hrely3 hinv3 => ?_)
    have hl3 := hl2.later hrely3 hinv3
    cases hfirst : firstOf s3 user with
    | none => exact meets_insertDefault hl3 (fun e s' he => h e _ s' he)
    | some found =>
      refine meets_bind.2 (meets_selectForUpdate fun s4 hrely4 hinv4 => ?_)
      refine meets_bind.2 (meets_found fun row hrow => ?_)
      refine meets_bind.2 (meets_require fun howned => ?_)
      have hnone : ∀ k c, s4.calendars.rows k = some c → owned user.userId c = true →
          c.is_default = false := by
        intro k c hc hk
        exact defaultOf_none hdefault k c
          ((hl2.row hrely3 hk).1 ((hl3.row hrely4 hk).1 hc)) hk
      exact h _ _ s4 (ensures_made ((hl3.later hrely4 hinv4).more (Set.subset_insert _ _)) hrow howned
        hnone)

theorem safe_list_calendars (user : AuthUserSummary) (calendar_id : String) (now : Time)
    (held : Set Key) (s : Db) : discipline.Safe (list_calendars user calendar_id now) held s := by
  unfold list_calendars
  refine meets_bind.2 (meets_ensure fun e held' s' he => commits_of ?_)
  intro s1 hrely hinv s2 hwrite
  obtain ⟨hinv', hguarded, -⟩ := he.writes s1 hrely hinv s2 hwrite
  exact ⟨hinv', hguarded⟩

/-! ## Calendars -/

theorem safe_create_calendar (user : AuthUserSummary) (item_id name color : String) (now : Time)
    (held : Set Key) (s : Db) :
    discipline.Safe (create_calendar user item_id name color now) held s := by
  unfold create_calendar
  refine meets_bind.2 (meets_lock_owner fun s1 _ hl => ?_)
  refine meets_bind.2 (meets_select fun s2 hrely2 hinv2 => ?_)
  refine meets_bind.2 (meets_require fun _ => ?_)
  refine meets_bind.2 (meets_select fun s3 hrely3 hinv3 => ?_)
  refine meets_bind.2 (meets_select fun s4 hrely4 hinv4 => ?_)
  have hl4 := ((hl.later hrely2 hinv2).later hrely3 hinv3).later hrely4 hinv4
  refine commits_of fun s5 hrely hinv s6 hwrite => ?_
  refine ⟨hinv.insertCalendar hwrite (hl4.later hrely hinv).member ?_,
    guarded_insertCalendar hwrite hl4.key⟩
  by_cases hsome : (s4.calendars.select (fun _ c => owned user.userId c && c.is_default)).Nonempty
  · obtain ⟨k, hk⟩ := hsome
    rw [Table.mem_select] at hk
    obtain ⟨c, hc, hdef⟩ := hk
    rw [Bool.and_eq_true] at hdef
    exact .inr ⟨k, c, (hl4.row hrely hdef.1).2 hc, hdef.1, hdef.2⟩
  · exact .inl (by simp only [hsome, decide_false, Bool.not_false])

/-- The locked rows of a list of subscriptions are all that the calendar has of the kind. -/
structure LockedSubscriptions (calendar_id : String) (p : Subscription → Bool) (ids : List String)
    (held : Set Key) (s : Db) : Prop where
  all : ∀ id sub, s.subscriptions.rows id = some sub → sub.calendar_id = calendar_id →
    p sub = true → id ∈ ids
  each : ∀ id ∈ ids, Key.subscription id ∈ held ∧
    ∃ sub, s.subscriptions.rows id = some sub ∧ sub.calendar_id = calendar_id ∧ p sub = true

theorem LockedSubscriptions.later {p : Subscription → Bool}
    (h : LockedSubscriptions calendar_id p ids held s) (hrely : Rely held s s')
    (hkey : .user user.userId ∈ held) (howned : OwnedBy s' user.userId calendar_id)
    (hp : ∀ sub, p sub = true → sub.isOpen = true) :
    LockedSubscriptions calendar_id p ids held s' where
  all := fun id sub hsub hcalendar hsub' =>
    h.all id sub (hrely.opened _ hkey id sub (hcalendar ▸ howned) hsub (hp sub hsub')) hcalendar hsub'
  each := fun id hid => by
    obtain ⟨hheld, sub, hsub, hrest⟩ := h.each id hid
    exact ⟨hheld, sub, hrely.locked id hheld sub hsub, hrest⟩

/-- A subscription to a calendar of the user is in his company. -/
theorem Locked.company (h : Locked user held s) {id : String}
    (hsub : s.subscriptions.rows id = some sub) (howned : OwnedBy s user.userId sub.calendar_id) :
    sub.company_id = user.companyId := by
  obtain ⟨c, hc, howner⟩ := howned
  obtain ⟨-, c', hc', hcompany⟩ := h.inv.homed.subscriptions id sub hsub
  rw [hc] at hc'
  cases hc'
  have hmember := h.inv.homed.calendars _ c hc
  rw [howner] at hmember
  exact hcompany.symm.trans (hmember.unique h.member)

theorem mem_subscriptionsOf {p : Subscription → Bool} {id : String} :
    id ∈ subscriptionsOf db user calendar_id p ↔ ∃ sub, db.subscriptions.rows id = some sub ∧
      sub.calendar_id = calendar_id ∧ sub.company_id = user.companyId ∧ p sub = true := by
  unfold subscriptionsOf
  rw [List.mem_filter, Table.mem_orderedKeys]
  cases db.subscriptions.rows id with
  | none => simp
  | some sub => simp [and_assoc]

theorem meets_lockSubscriptions {p : Subscription → Bool} {Q : List String → Set Key → Db → Prop}
    (hl : Locked user held s) (howned : OwnedBy s user.userId calendar_id)
    (hp : ∀ sub, p sub = true → sub.isOpen = true)
    (h : ∀ ids held' s', held ⊆ held' → Rely held s s' → Inv s' →
      LockedSubscriptions calendar_id p ids held' s' → Q ids held' s') :
    discipline.Meets Q (lockSubscriptions user calendar_id p) held s := by
  unfold lockSubscriptions
  refine meets_bind.2 (meets_select fun s1 hrely1 hinv1 => ?_)
  have hl1 := hl.later hrely1 hinv1
  refine meets_lockEach (fun s id => ∃ sub, s.subscriptions.rows id = some sub ∧
    sub.calendar_id = calendar_id) ?_ ?_ _ hinv1 ?_ ?_
  · rintro held1 s2 s3 id hrely ⟨sub, hsub, hcalendar⟩
    obtain ⟨sub', hsub', hsame⟩ := Rely.kept hrely id sub hsub
    exact ⟨sub', hsub', hsame.calendar.trans hcalendar⟩
  · rintro held1 s2 s3 id hrely hkey ⟨sub, hsub, -⟩
    rw [Rely.locked hrely id hkey sub hsub, hsub]
  · intro id hid
    obtain ⟨sub, hsub, hcalendar, -⟩ := mem_subscriptionsOf.1 hid
    exact ⟨sub, hsub, hcalendar⟩
  · intro s2 held' hsub hkeys hrely2 hinv2
    have howned2 : OwnedBy s2 user.userId calendar_id :=
      (hrely2.ownedBy hl1.key).2 ((Rely.ownedBy hrely1 hl.key).2 howned)
    refine h _ held' s2 hsub (discipline.trans _ _ _ _ hrely1 hrely2) hinv2 ⟨?_, ?_⟩
    · intro id sub hrow hcalendar hsub'
      have hold := hrely2.opened _ hl1.key id sub (hcalendar ▸ howned2) hrow (hp sub hsub')
      have hcompany : sub.company_id = user.companyId :=
        hl1.company hold (hcalendar ▸ (Rely.ownedBy hrely1 hl.key).2 howned)
      refine List.mem_filter.2 ⟨mem_subscriptionsOf.2 ⟨sub, hold, hcalendar, hcompany, hsub'⟩, ?_⟩
      rw [hrow]
      exact hsub'
    · intro id hid
      obtain ⟨hid, hkeep⟩ := List.mem_filter.1 hid
      obtain ⟨sub, hold, hcalendar, -⟩ := mem_subscriptionsOf.1 hid
      obtain ⟨sub', hrow, hsame⟩ := hrely2.kept id sub hold
      rw [hrow] at hkeep
      exact ⟨hkeys id hid, sub', hrow, hsame.calendar.trans hcalendar, hkeep⟩

theorem isOpen_of_isPending (sub : Subscription) (h : isPending sub = true) : sub.isOpen = true :=
  isOpen_iff.2 (.inl (of_decide_eq_true h))

theorem safe_delete_calendar (user : AuthUserSummary) (calendar_id : String) (expectedVersion : Nat)
    (held : Set Key) (s : Db) :
    discipline.Safe (delete_calendar user calendar_id expectedVersion) held s := by
  unfold delete_calendar
  refine meets_bind.2 (meets_lock_owner fun s1 _ hl => ?_)
  refine meets_bind.2 (meets_selectForUpdate fun s2 hrely2 hinv2 => ?_)
  refine meets_bind.2 (meets_found fun current hrow => ?_)
  refine meets_bind.2 (meets_require fun hcurrent => ?_)
  refine meets_bind.2 (meets_require fun _ => ?_)
  refine meets_bind.2 (meets_require fun hdefault => ?_)
  have hl2 := (hl.later hrely2 hinv2).more (Set.subset_insert (Key.calendar calendar_id) _)
  have howned2 : OwnedBy s2 user.userId calendar_id := ⟨current, hrow, (owned_iff.1 hcurrent.2).1⟩
  refine meets_bind.2 (meets_lockSubscriptions hl2 howned2 (fun _ h => h) ?_)
  intro ids held' s3 hsub hrely3 hinv3 hlocked
  have hl3 := (hl2.later hrely3 hinv3).more hsub
  refine commits_of fun s4 hrely4 hinv4 s5 hwrite => ?_
  cases hwrite
  have hrow4 : s4.calendars.rows calendar_id = some current :=
    (hl3.row hrely4 hcurrent.2).2 ((hl2.row hrely3 hcurrent.2).2 hrow)
  have hlocked4 := hlocked.later hrely4 hl3.key ⟨current, hrow4, (owned_iff.1 hcurrent.2).1⟩
    (fun _ h => h)
  exact ⟨hinv4.removeCalendar hrow4 hcurrent.2 hdefault hlocked4.all,
    guarded_removeCalendar hrow4 hcurrent.2 hl3.key (fun id hid => (hlocked4.each id hid).1)⟩

theorem validate_order_snapshot_mem {current : List (String × Nat)}
    {requested : List CalendarOrderItem} (h : validate_order_snapshot current requested = some ids)
    {id : String} (hid : id ∈ ids) : id ∈ current.map Prod.fst := by
  unfold validate_order_snapshot at h
  dsimp only at h
  split_ifs at h with hsame
  cases h
  rw [not_or, not_not, not_not] at hsame
  rw [← List.mem_toFinset, ← hsame.2, List.mem_toFinset]
  exact hid

theorem safe_reorder_calendars (user : AuthUserSummary) (items : List CalendarOrderItem)
    (held : Set Key) (s : Db) : discipline.Safe (reorder_calendars user items) held s := by
  unfold reorder_calendars
  refine meets_bind.2 (meets_lock_owner fun s1 _ hl => ?_)
  refine meets_bind.2 (meets_select fun s2 hrely2 hinv2 => ?_)
  have hl2 := hl.later hrely2 hinv2
  refine meets_bind.2 (meets_lockEach_sub _ hinv2 fun ids s3 held' hsub hids hrely3 hinv3 => ?_)
  have hl3 := (hl2.later hrely3 hinv3).more hsub
  refine meets_bind.2 (meets_select fun s4 hrely4 hinv4 => ?_)
  have hl4 := hl3.later hrely4 hinv4
  refine meets_bind.2 (meets_found fun ordered_ids hordered => ?_)
  refine commits_of fun s5 hrely5 hinv5 s6 hwrite => ?_
  cases hwrite
  refine ⟨hinv5.reordered ordered_ids, guarded_reordered (hl4.later hrely5 hinv5).key ?_⟩
  intro id hid
  -- the calendar was the user's when the list was read, and has stayed so
  obtain ⟨entry, hentry, rfl⟩ := List.mem_map.1 (validate_order_snapshot_mem hordered hid)
  obtain ⟨k, hk, hrow⟩ := List.mem_filterMap.1 hentry
  obtain ⟨c, hc, rfl⟩ := Option.map_eq_some_iff.1 hrow
  obtain ⟨c', hc', howned⟩ := Option.any_eq_true .. |>.1 (List.mem_filter.1 (hids hk)).2
  rw [Bool.and_eq_true] at howned
  have hrow5 : s5.calendars.rows k = some c' := (hl4.row hrely5 howned.2).2
    ((hl3.row hrely4 howned.2).2 ((hl2.row hrely3 howned.2).2 hc'))
  exact ⟨c', hrow5, (owned_iff.1 howned.2).1⟩

/-- An open subscription to another calendar is not touched by an update. -/
theorem Updated.other {updated : Calendar} {db' : Db} (hu : Updated calendar_id updated db db')
    (h : Inv db) {id : String} (hsub : db.subscriptions.rows id = some sub)
    (hopen : sub.isOpen = true) (hne : sub.calendar_id ≠ calendar_id) :
    ∃ c, db'.calendars.rows sub.calendar_id = some c ∧ Subscribed sub c := by
  obtain ⟨c, hc, hs⟩ := h.subscribed id sub hsub hopen
  obtain ⟨c', hc', hsame⟩ := hu.rest _ c hne hc
  exact ⟨c', hc', hs.same hsame⟩

/-- What an open subscription says of the calendar before the update. -/
theorem Inv.subscribed_at (h : Inv db) (hrow : db.calendars.rows calendar_id = some current)
    {id : String} (hsub : db.subscriptions.rows id = some sub) (hopen : sub.isOpen = true)
    (hcalendar : sub.calendar_id = calendar_id) : Subscribed sub current := by
  obtain ⟨c, hc, hs⟩ := h.subscribed id sub hsub hopen
  rw [hcalendar, hrow] at hc
  cases hc
  exact hs

/-- What an update of the calendar leaves to a subscription that stays. -/
theorem Subscribed.updated (h : Subscribed sub c)
    (hvisible : (updatedCalendar payload c).visibility ≠ .private)
    (hpending : sub.status = .pending →
      (updatedCalendar payload c).visibility = .approval_required) :
    Subscribed sub (updatedCalendar payload c) :=
  ⟨h.active, hvisible, hpending, h.origin⟩

/-- The writes of the subscriptions that go with an update of a calendar. -/
structure Follows (user : AuthUserSummary) (calendar_id : String) (current : Calendar)
    (payload : CalendarUpdatePayload) (f : Db → Db) (held : Set Key) (s : Db) : Prop where
  locked : Locked user held s
  row : s.calendars.rows calendar_id = some current
  writes : ∀ s', Rely held s s' → Inv s' → s'.calendars.rows calendar_id = some current →
    ∀ db', Updated calendar_id (updatedCalendar payload current) s' db' → Guarded held s' db' →
      Inv (f db') ∧ Guarded held s' (f db')

theorem follows_none (hl : Locked user held s) (hrow : s.calendars.rows calendar_id = some current)
    (hprivate : (updatedCalendar payload current).visibility = .private →
      current.visibility = .private) (hpublic : current.visibility = .approval_required →
      (updatedCalendar payload current).visibility ≠ .public) :
    Follows user calendar_id current payload id held s where
  locked := hl
  row := hrow
  writes := fun s' _ hinv hrow' db' hu hguarded => by
    refine ⟨⟨hu.defaults, fun k sub hsub hopen => ?_, fun k e he => ?_, ?_⟩, hguarded⟩
    · change db'.subscriptions.rows k = some sub at hsub
      rw [hu.subscriptions] at hsub
      by_cases hcalendar : sub.calendar_id = calendar_id
      · have hs := hinv.subscribed_at hrow' hsub hopen hcalendar
        have hvisible : (updatedCalendar payload current).visibility ≠ .private :=
          fun h => hs.visible (hprivate h)
        refine ⟨_, hcalendar ▸ hu.row, hs.updated hvisible fun hp => ?_⟩
        have hchanged := hpublic (hs.pending hp)
        cases hv : (updatedCalendar payload current).visibility with
        | approval_required => rfl
        | «public» => exact absurd hv hchanged
        | «private» => exact absurd hv hvisible
      · exact hu.other hinv hsub hopen hcalendar
    · exact hinv.placed_of hu.place (hu.events ▸ he)
    · refine hinv.homed.rewrite (fun _ => by rw [← hu.users]; rfl) (hu.place.place fun _ _ hs => hs)
        ?_ ?_
      · rw [← hu.subscriptions]
        exact alike_refl SameParties.refl _
      · rw [← hu.events]
        exact alike_refl SameOwner.refl _

/-- A private calendar has lost all its subscriptions. -/
theorem follows_cancel (hl : Locked user held s)
    (hrow : s.calendars.rows calendar_id = some current) (howned : owned user.userId current = true)
    (hlocked : LockedSubscriptions calendar_id Subscription.isOpen ids held s) :
    Follows user calendar_id current payload (Db.updateSubscriptions ids cancelled) held s where
  locked := hl
  row := hrow
  writes := fun s' hrely hinv hrow' db' hu hguarded => by
    have hlocked' := hlocked.later hrely hl.key ⟨current, hrow', (owned_iff.1 howned).1⟩ (fun _ h => h)
    have hparties : ∀ sub, SameParties sub (cancelled sub) := fun _ => ⟨rfl, rfl, rfl⟩
    have hsubs : Guarded held s' (s'.updateSubscriptions ids cancelled) := by
      refine guarded_updateSubscriptions hparties (fun id hid => (hlocked'.each id hid).1) ?_
      exact fun _ _ sub _ hopen => absurd hopen (not_isOpen_cancelled sub)
    refine ⟨hinv.updateSubscriptions hparties hu.place hu.defaults hu.users hu.subscriptions hu.events
      fun id sub hsub => ⟨fun _ hopen => absurd hopen (not_isOpen_cancelled sub),
        fun hid hopen => ?_⟩, ?_⟩
    · exact hu.other hinv hsub hopen fun hcalendar => hid (hlocked'.all id sub hsub hcalendar hopen)
    · refine ⟨hguarded.users, hguarded.calendars, ?_, hguarded.events⟩
      have hsame : (db'.updateSubscriptions ids cancelled).subscriptions =
          (s'.updateSubscriptions ids cancelled).subscriptions := by
        unfold Db.updateSubscriptions
        rw [hu.subscriptions]
      rw [hsame]
      exact hsubs.subscriptions

/-- A public calendar has accepted all that asked for it. -/
theorem follows_activate (hl : Locked user held s)
    (hrow : s.calendars.rows calendar_id = some current) (howned : owned user.userId current = true)
    (hpublic : (updatedCalendar payload current).visibility = .public)
    (hlocked : LockedSubscriptions calendar_id isPending ids held s) :
    Follows user calendar_id current payload (Db.updateSubscriptions ids
      (activated user.userId (updatedCalendar payload current).visibility)) held s where
  locked := hl
  row := hrow
  writes := fun s' hrely hinv hrow' db' hu hguarded => by
    have hlocked' := hlocked.later hrely hl.key ⟨current, hrow', (owned_iff.1 howned).1⟩
      isOpen_of_isPending
    have hvisible : (updatedCalendar payload current).visibility ≠ .private := by
      rw [hpublic]
      decide
    generalize hf : activated user.userId (updatedCalendar payload current).visibility = f
    have hparties : ∀ sub, SameParties sub (f sub) := fun _ => hf ▸ ⟨rfl, rfl, rfl⟩
    have hat : ∀ id ∈ ids, ∀ sub, s'.subscriptions.rows id = some sub →
        sub.calendar_id = calendar_id := by
      intro id hid sub hsub
      obtain ⟨-, sub', hsub', hcalendar, -⟩ := hlocked'.each id hid
      rw [hsub] at hsub'
      cases hsub'
      exact hcalendar
    have hsubs : Guarded held s' (s'.updateSubscriptions ids f) := by
      refine guarded_updateSubscriptions hparties (fun id hid => (hlocked'.each id hid).1) ?_
      intro id hid sub hsub _
      refine ⟨current, (hat id hid sub hsub) ▸ hrow', ?_⟩
      rw [(owned_iff.1 howned).1]
      exact hl.key
    refine ⟨hinv.updateSubscriptions hparties hu.place hu.defaults hu.users hu.subscriptions hu.events
      fun id sub hsub => ⟨fun hid _ => ?_, fun hid hopen => ?_⟩, ?_⟩
    · refine ⟨_, (hat id hid sub hsub) ▸ hu.row, hf ▸ ?_⟩
      exact Subscribed.activated (owned_iff.1 howned).2 hvisible (.inl hpublic)
    · by_cases hcalendar : sub.calendar_id = calendar_id
      · have hs := hinv.subscribed_at hrow' hsub hopen hcalendar
        refine ⟨_, hcalendar ▸ hu.row, hs.updated hvisible fun hp => ?_⟩
        exact absurd (hlocked'.all id sub hsub hcalendar (decide_eq_true hp)) hid
      · exact hu.other hinv hsub hopen hcalendar
    · refine ⟨hguarded.users, hguarded.calendars, ?_, hguarded.events⟩
      have hsame : (db'.updateSubscriptions ids f).subscriptions =
          (s'.updateSubscriptions ids f).subscriptions := by
        unfold Db.updateSubscriptions
        rw [hu.subscriptions]
      rw [hsame]
      exact hsubs.subscriptions

theorem meets_updateSubscribers {Q : (Db → Db) → Set Key → Db → Prop} (hl : Locked user held s)
    (hrow : s.calendars.rows calendar_id = some current) (howned : owned user.userId current = true)
    (h : ∀ f held' s', Follows user calendar_id current payload f held' s' → Q f held' s') :
    discipline.Meets Q (updateSubscribers user calendar_id (updatedCalendar payload current).visibility
      (subscription_action_for_visibility_change current.visibility
        (updatedCalendar payload current).visibility)) held s := by
  have howner : OwnedBy s user.userId calendar_id := ⟨current, hrow, (owned_iff.1 howned).1⟩
  unfold subscription_action_for_visibility_change
  split_ifs with hcancel hactivate
  · refine meets_bind.2 (meets_lockSubscriptions hl howner (fun _ h => h) ?_)
    intro ids held' s' hsub hrely hinv hlocked
    exact h _ held' s' (follows_cancel ((hl.later hrely hinv).more hsub)
      ((hl.row hrely howned).2 hrow) howned hlocked)
  · refine meets_bind.2 (meets_lockSubscriptions hl howner isOpen_of_isPending ?_)
    intro ids held' s' hsub hrely hinv hlocked
    exact h _ held' s' (follows_activate ((hl.later hrely hinv).more hsub)
      ((hl.row hrely howned).2 hrow) howned hactivate.2 hlocked)
  · refine h _ held s (follows_none hl hrow (fun hv => ?_) (fun hv hv' => hactivate ⟨hv, hv'⟩))
    by_contra hother
    exact hcancel ⟨hv, hother⟩

theorem safe_update_calendar (user : AuthUserSummary) (calendar_id : String)
    (payload : CalendarUpdatePayload) (held : Set Key) (s : Db) :
    discipline.Safe (update_calendar user calendar_id payload) held s := by
  unfold update_calendar
  refine meets_bind.2 (meets_lock_owner fun s1 _ hl => ?_)
  refine meets_bind.2 (meets_selectForUpdate fun s2 hrely2 hinv2 => ?_)
  refine meets_bind.2 (meets_found fun current hrow => ?_)
  refine meets_bind.2 (meets_require fun hcurrent => ?_)
  refine meets_bind.2 (meets_require fun _ => ?_)
  refine meets_bind.2 (meets_require fun hdefault => ?_)
  refine meets_bind.2 (meets_select fun s3 hrely3 hinv3 => ?_)
  refine meets_bind.2 (meets_require fun _ => ?_)
  have hl2 := (hl.later hrely2 hinv2).more (Set.subset_insert (Key.calendar calendar_id) _)
  refine meets_bind.2 (meets_updateSubscribers (hl2.later hrely3 hinv3)
    ((hl2.row hrely3 hcurrent.2).2 hrow) hcurrent.2 fun f held' s4 hfollows => ?_)
  refine commits_of fun s5 hrely5 hinv5 s6 hwrite => ?_
  obtain ⟨db', hwrite', rfl⟩ := Option.map_eq_some_iff.1 hwrite
  have hrow5 : s5.calendars.rows calendar_id = some current :=
    (hfollows.locked.row hrely5 hcurrent.2).2 hfollows.row
  exact hfollows.writes s5 hrely5 hinv5 hrow5 db'
    (hinv5.writeCalendar hrow5 hcurrent.2 hdefault hwrite')
    (guarded_writeCalendar hrow5 (owned_iff.1 hcurrent.2).1 hfollows.locked.key hwrite')

/-! ## Subscriptions -/

/-- A calendar that the user can subscribe to, with its owner locked. -/
structure Offered (user : AuthUserSummary) (calendarId : String) (target : Calendar)
    (held : Set Key) (s : Db) : Prop where
  key : .user target.owner_user_id ∈ held
  row : s.calendars.rows calendarId = some target
  company : target.company_id = user.companyId
  active : target.status = .active
  visible : target.visibility ≠ .private

theorem Offered.later {calendarId : String} {target : Calendar}
    (h : Offered user calendarId target held s) (hrely : Rely held s s') :
    Offered user calendarId target held s' :=
  ⟨h.key, (hrely.calendars _ h.key calendarId target rfl).2 h.row, h.company, h.active, h.visible⟩

theorem meets_lockOffered {calendarId : String} {Q : Calendar → Set Key → Db → Prop}
    (h : ∀ target held' s', Rely held s s' → Offered user calendarId target held' s' →
      Q target held' s') : discipline.Meets Q (lockOffered user calendarId) held s := by
  unfold lockOffered
  refine meets_bind.2 (meets_selectForUpdate fun s1 hrely1 _ => ?_)
  refine meets_bind.2 (meets_found fun seen _ => ?_)
  refine meets_bind.2 (meets_selectForUpdate fun s2 hrely2 _ => ?_)
  refine meets_bind.2 (meets_found fun target htarget => ?_)
  refine meets_bind.2 (meets_found fun owner _ => ?_)
  refine meets_bind.2 (meets_require fun hc => ?_)
  obtain ⟨howner, hoffered, -⟩ := hc
  simp only [offered, Bool.and_eq_true, decide_eq_true_eq] at hoffered
  obtain ⟨⟨⟨hcompany, -⟩, hactive⟩, hvisible⟩ := hoffered
  refine h target _ s2 ?_ ⟨?_, htarget, hcompany, hactive, hvisible⟩
  · exact discipline.trans _ _ _ _ hrely1 (discipline.anti _ _ _ _ (Set.subset_insert _ _) hrely2)
  · rw [howner]
    exact Set.mem_insert _ _

/-- A request is active for a public calendar only, and pending for one that asks for approval. -/
theorem Subscribed.requested {actor : String} {status : SubscriptionStatus} {origin : Option Origin}
    (hactive : c.status = .active) (hvisible : c.visibility ≠ .private)
    (hstatus : subscription_status_for_visibility c.visibility = some status)
    (hsub : sub.status = status) (horigin : sub.origin = originOf actor c.visibility status origin) :
    Subscribed sub c := by
  refine ⟨hactive, hvisible, fun hp => ?_, fun ha => ?_⟩
  · cases hv : c.visibility with
    | approval_required => rfl
    | «public» =>
      rw [hv] at hstatus
      cases hstatus
      rw [hsub] at hp
      cases hp
    | «private» => exact absurd hv hvisible
  · rw [hsub] at ha
    subst ha
    refine ⟨_, horigin, .inl ?_⟩
    cases hv : c.visibility with
    | «public» => rfl
    | approval_required => rw [hv] at hstatus; cases hstatus
    | «private» => exact absurd hv hvisible

theorem subscriptionFor_some {id : String} (h : subscriptionFor db calendar_id user_id = some id) :
    ∃ sub, db.subscriptions.rows id = some sub ∧ sub.calendar_id = calendar_id := by
  unfold subscriptionFor at h
  have hid := List.find?_some h
  rw [Option.any_eq_true] at hid
  obtain ⟨sub, hsub, hfound⟩ := hid
  rw [Bool.and_eq_true] at hfound
  exact ⟨sub, hsub, of_decide_eq_true hfound.1⟩

theorem safe_create_calendar_subscription (user : AuthUserSummary)
    (subscription_id calendarId : String) (held : Set Key) (s : Db)
    (hmember : Member s user.userId user.companyId) :
    discipline.Safe (create_calendar_subscription user subscription_id calendarId) held s := by
  unfold create_calendar_subscription
  refine meets_bind.2 (meets_lockOffered fun target held1 s1 hrely1 hoffered1 => ?_)
  refine meets_bind.2 (meets_found fun status hstatus => ?_)
  refine meets_bind.2 (meets_select fun s2 hrely2 hinv2 => ?_)
  have hoffered2 := hoffered1.later hrely2
  have hmember2 := (hmember.same (Rely.users hrely1 _)).same (Rely.users hrely2 _)
  cases hexisting : subscriptionFor s2 calendarId user.userId with
  | none =>
    refine commits_of fun s3 hrely3 hinv3 s4 hwrite => ?_
    have hoffered3 := hoffered2.later hrely3
    refine ⟨hinv3.insertSubscription hwrite (hmember2.same (hrely3.users _)) hoffered3.row
      hoffered3.company fun _ => ?_, guarded_insertSubscription hwrite hoffered3.row hoffered3.key⟩
    exact Subscribed.requested hoffered3.active hoffered3.visible hstatus rfl rfl
  | some id =>
    obtain ⟨sub2, hsub2, hcalendar2⟩ := subscriptionFor_some hexisting
    refine meets_bind.2 (meets_selectForUpdate fun s3 hrely3 hinv3 => ?_)
    refine meets_bind.2 (meets_found fun sub hsub => ?_)
    refine meets_bind.2 (meets_require fun _ => ?_)
    have hoffered3 := hoffered2.later hrely3
    have hcalendar : sub.calendar_id = calendarId := by
      obtain ⟨sub', hsub', hsame⟩ := Rely.kept hrely3 id sub2 hsub2
      rw [hsub] at hsub'
      cases hsub'
      exact hsame.calendar.trans hcalendar2
    refine commits_of fun s4 hrely4 hinv4 s5 hwrite => ?_
    cases hwrite
    have hsub4 := hrely4.locked id (Set.mem_insert _ _) sub hsub
    have hoffered4 : Offered user calendarId target _ s4 := Offered.later
      ⟨Set.mem_insert_of_mem _ hoffered3.key, hoffered3.row, hoffered3.company, hoffered3.active,
        hoffered3.visible⟩ hrely4
    have hparties : ∀ sub, SameParties sub (requested user.userId target.visibility status sub) :=
      fun _ => ⟨rfl, rfl, rfl⟩
    have hrow : ∀ id' ∈ [id], ∀ sub', s4.subscriptions.rows id' = some sub' →
        s4.calendars.rows sub'.calendar_id = some target := by
      intro id' hid sub' hsub'
      rw [List.mem_singleton.1 hid, hsub4] at hsub'
      cases hsub'
      rw [hcalendar]
      exact hoffered4.row
    refine ⟨hinv4.updateSubscriptions hparties (alike_refl SamePlace.refl _) hinv4.defaults rfl rfl rfl
      fun id' sub' hsub' => ⟨fun hid _ => ?_, fun _ hopen => hinv4.subscribed id' sub' hsub' hopen⟩,
      guarded_updateSubscriptions hparties (fun id' hid => ?_) fun id' hid sub' hsub' _ => ?_⟩
    · exact ⟨target, hrow id' hid sub' hsub',
        Subscribed.requested hoffered4.active hoffered4.visible hstatus rfl rfl⟩
    · rw [List.mem_singleton.1 hid]
      exact Set.mem_insert _ _
    · exact ⟨target, hrow id' hid sub' hsub', hoffered4.key⟩

theorem safe_decide_calendar_subscription (user : AuthUserSummary) (subscription_id : String)
    (accepted : Bool) (held : Set Key) (s : Db) :
    discipline.Safe (decide_calendar_subscription user subscription_id accepted) held s := by
  unfold decide_calendar_subscription
  refine meets_bind.2 (meets_lock_owner fun s1 _ hl => ?_)
  refine meets_bind.2 (meets_select fun s2 hrely2 hinv2 => ?_)
  refine meets_bind.2 (meets_found fun seen _ => ?_)
  refine meets_bind.2 (meets_selectForUpdate fun s3 hrely3 hinv3 => ?_)
  refine meets_bind.2 (meets_found fun calendar hrow => ?_)
  refine meets_bind.2 (meets_require fun hcalendar => ?_)
  refine meets_bind.2 (meets_selectForUpdate fun s4 hrely4 hinv4 => ?_)
  refine meets_bind.2 (meets_found fun current hcurrent => ?_)
  refine meets_bind.2 (meets_require fun hseen => ?_)
  refine meets_bind.2 (meets_require fun hpending => ?_)
  have hl3 := ((hl.later hrely2 hinv2).later hrely3 hinv3).more
    (Set.subset_insert (Key.calendar seen.calendar_id) _)
  have hl4 := (hl3.later hrely4 hinv4).more (Set.subset_insert (Key.subscription subscription_id) _)
  refine commits_of fun s5 hrely5 hinv5 s6 hwrite => ?_
  cases hwrite
  have hrow5 : s5.calendars.rows seen.calendar_id = some calendar :=
    (hl4.row hrely5 hcalendar.2).2 ((hl3.row hrely4 hcalendar.2).2 hrow)
  have hcurrent5 := hrely5.locked subscription_id (Set.mem_insert _ _) current hcurrent
  have hs : Subscribed current calendar := hinv5.subscribed_at hrow5 hcurrent5
    (isOpen_iff.2 (.inl hpending)) hseen.1
  have howner : calendar.owner_user_id = user.userId := (owned_iff.1 hcalendar.2).1
  have hparties : ∀ sub, SameParties sub (decided user.userId calendar.visibility accepted sub) := by
    intro sub
    unfold decided
    split_ifs <;> exact ⟨rfl, rfl, rfl⟩
  have hsub : ∀ id ∈ [subscription_id], ∀ sub, s5.subscriptions.rows id = some sub →
      s5.calendars.rows sub.calendar_id = some calendar := by
    intro id hid sub hsub
    rw [List.mem_singleton.1 hid, hcurrent5] at hsub
    cases hsub
    rw [hseen.1]
    exact hrow5
  refine ⟨hinv5.updateSubscriptions hparties (alike_refl SamePlace.refl _) hinv5.defaults rfl rfl rfl
    fun id sub hrow => ⟨fun hid hopen => ⟨calendar, hsub id hid sub hrow, ?_⟩,
      fun _ hopen => hinv5.subscribed id sub hrow hopen⟩,
    guarded_updateSubscriptions hparties (fun id hid => ?_) fun id hid sub hrow _ => ?_⟩
  · cases accepted with
    | true => exact Subscribed.activated hs.active hs.visible (.inr howner.symm)
    | false =>
      rcases isOpen_iff.1 hopen with hopen | hopen <;> cases hopen
  · rw [List.mem_singleton.1 hid]
    exact Set.mem_insert _ _
  · refine ⟨calendar, hsub id hid sub hrow, ?_⟩
    rw [howner]
    exact hl4.key

theorem safe_cancel_calendar_subscription (user : AuthUserSummary) (subscription_id : String)
    (held : Set Key) (s : Db) :
    discipline.Safe (cancel_calendar_subscription user subscription_id) held s := by
  unfold cancel_calendar_subscription
  refine meets_bind.2 (meets_selectForUpdate fun s1 _ _ => ?_)
  refine meets_bind.2 (meets_found fun row _ => ?_)
  refine meets_bind.2 (meets_require fun _ => ?_)
  refine commits_of fun s2 _ hinv2 s3 hwrite => ?_
  cases hwrite
  have hparties : ∀ sub, SameParties sub (cancelled sub) := fun _ => ⟨rfl, rfl, rfl⟩
  refine ⟨hinv2.updateSubscriptions hparties (alike_refl SamePlace.refl _) hinv2.defaults rfl rfl rfl
    fun id sub hrow => ⟨fun _ hopen => absurd hopen (not_isOpen_cancelled sub),
      fun _ hopen => hinv2.subscribed id sub hrow hopen⟩,
    guarded_updateSubscriptions hparties (fun id hid => ?_)
      fun _ _ sub _ hopen => absurd hopen (not_isOpen_cancelled sub)⟩
  rw [List.mem_singleton.1 hid]
  exact Set.mem_insert _ _

/-! ## Events -/

theorem meets_resolve {calendar_id : Option String} {new_id : String} {now : Time}
    {Q : Ensured → Set Key → Db → Prop} (h : ∀ e held' s', Resolves user e held' s' → Q e held' s') :
    discipline.Meets Q (_resolve_owned_calendar user calendar_id new_id now) held s := by
  unfold _resolve_owned_calendar
  refine meets_bind.2 (meets_ensure fun e held1 s1 he => ?_)
  cases calendar_id.filter (fun id => id != "") with
  | none => exact h e held1 s1 he.toResolves
  | some id =>
    refine meets_bind.2 (meets_select fun s2 hrely2 hinv2 => ?_)
    refine meets_bind.2 (meets_found fun row hrow => ?_)
    refine meets_bind.2 (meets_require fun hc => ?_)
    refine h ⟨id, e.written⟩ held1 s2 ⟨he.locked.later hrely2 hinv2, ?_⟩
    intro s3 hrely3 hinv3 s4 hwrite
    obtain ⟨hinv4, hguarded, -, hrest⟩ := he.writes s3 (discipline.trans _ _ _ _ hrely2 hrely3) hinv3
      s4 hwrite
    exact ⟨hinv4, hguarded, he.keeps s2 hrely2 hinv2 id row hrow hc.2 s3 hrely3 hinv3 s4 hwrite, hrest⟩

theorem safe_create_schedule (user : AuthUserSummary) (item_id : String) (payload : SchedulePayload)
    (new_id : String) (now : Time) (held : Set Key) (s : Db) :
    discipline.Safe (create_schedule user item_id payload new_id now) held s := by
  unfold create_schedule
  refine meets_bind.2 (meets_select fun s1 _ _ => ?_)
  refine meets_bind.2 (meets_require fun _ => ?_)
  refine meets_bind.2 (meets_resolve fun e held2 s2 he => ?_)
  refine commits_of fun s3 hrely3 hinv3 s4 hwrite => ?_
  obtain ⟨db, hdb, hinsert⟩ := Option.bind_eq_some_iff.1 hwrite
  obtain ⟨hinv, hguarded, hplace, husers, hsubs, hevents⟩ := he.writes s3 hrely3 hinv3 db hdb
  have hmember : Member db user.userId user.companyId :=
    (he.locked.later hrely3 hinv3).member.same (by rw [husers])
  refine ⟨hinv.insertEvent hinsert hmember hplace, ?_⟩
  have hnew := insertEvent_same hinsert
  subst hnew
  refine ⟨hguarded.users, hguarded.calendars, hguarded.subscriptions, fun k e' hk hactive hne => ?_⟩
  rw [Table.rows_set] at hk
  split_ifs at hk with hid
  · cases hk
    exact he.locked.key
  · exact hguarded.events k e' hk hactive hne

theorem ownedEvent_owner {e : ScheduleEvent} (h : ownedEvent user e = true) :
    e.owner_user_id = user.userId := by
  simp only [ownedEvent, Bool.and_eq_true, decide_eq_true_eq] at h
  exact h.1.2

theorem safe_update_schedule (user : AuthUserSummary) (item_id : String) (payload : SchedulePayload)
    (new_id : String) (now : Time) (held : Set Key) (s : Db) :
    discipline.Safe (update_schedule user item_id payload new_id now) held s := by
  unfold update_schedule
  refine meets_bind.2 (meets_select fun s1 _ _ => ?_)
  refine meets_bind.2 (meets_require fun _ => ?_)
  refine meets_bind.2 (meets_select fun s2 _ _ => ?_)
  refine meets_bind.2 (meets_require fun _ => ?_)
  refine meets_bind.2 (meets_resolve fun calendar held3 s3 he => ?_)
  refine commits_of fun s4 hrely4 hinv4 s5 hwrite => ?_
  obtain ⟨db, hdb, rfl⟩ := Option.map_eq_some_iff.1 hwrite
  obtain ⟨hinv, hguarded, hplace, husers, hsubs, hevents⟩ := he.writes s4 hrely4 hinv4 db hdb
  have howner : ∀ k e, (decide (k = item_id) && ownedEvent user e) = true →
      e.owner_user_id = user.userId := by
    intro k e hp
    rw [Bool.and_eq_true] at hp
    exact ownedEvent_owner hp.2
  refine ⟨hinv.updateEvents (fun _ => ⟨rfl, rfl⟩) fun k e _ hp _ => ?_, ?_⟩
  · rw [howner k e hp]
    exact hplace
  · refine ⟨hguarded.users, hguarded.calendars, hguarded.subscriptions, fun k e' hk hactive hne => ?_⟩
    obtain ⟨e, hrow, ⟨hp, rfl⟩ | ⟨-, rfl⟩⟩ := rows_updateEvents hk
    · rw [howner k e hp]
      exact he.locked.key
    · exact hguarded.events k e' hrow hactive hne

theorem safe_delete_schedule (user : AuthUserSummary) (item_id : String) (held : Set Key) (s : Db) :
    discipline.Safe (delete_schedule user item_id) held s := by
  unfold delete_schedule
  refine meets_bind.2 (meets_select fun s1 _ _ => ?_)
  refine meets_bind.2 (meets_require fun _ => ?_)
  refine commits_of fun s2 _ hinv2 s3 hwrite => ?_
  cases hwrite
  refine ⟨hinv2.updateEvents (fun _ => ⟨rfl, rfl⟩) ?_, guarded_updateEvents ?_⟩
  · exact fun _ _ _ _ hactive => nomatch hactive
  · exact fun _ _ _ _ hactive => nomatch hactive

/-! ## Runs -/

/-- Sessions of any users, overlapping as the locks allow. -/
def Reachable (w : Database.World Db Key Unit) : Prop :=
  workspace.machine.Reach (fun _ _ => True) w

theorem summaryOf_some (h : summaryOf db user_id = some user) :
    Member db user.userId user.companyId := by
  obtain ⟨row, hrow, rfl⟩ := Option.map_eq_some_iff.1 h
  exact ⟨row, (Option.filter_eq_some_iff.1 hrow).1, rfl⟩

theorem safe_call (hmember : Member s user.userId user.companyId) (call : Call) :
    discipline.Safe (call.transaction user) ∅ s := by
  cases call with
  | list_calendars calendar_id now => exact safe_list_calendars user _ _ ∅ s
  | create_calendar item_id name color now => exact safe_create_calendar user _ _ _ _ ∅ s
  | update_calendar calendar_id payload => exact safe_update_calendar user _ _ ∅ s
  | reorder_calendars items => exact safe_reorder_calendars user _ ∅ s
  | delete_calendar calendar_id expectedVersion => exact safe_delete_calendar user _ _ ∅ s
  | create_calendar_subscription subscription_id calendarId =>
    exact safe_create_calendar_subscription user _ _ ∅ s hmember
  | decide_calendar_subscription subscription_id accepted =>
    exact safe_decide_calendar_subscription user _ _ ∅ s
  | cancel_calendar_subscription subscription_id => exact safe_cancel_calendar_subscription user _ ∅ s
  | create_schedule item_id payload new_id now => exact safe_create_schedule user _ _ _ _ ∅ s
  | update_schedule item_id payload new_id now => exact safe_update_schedule user _ _ _ _ ∅ s
  | delete_schedule item_id => exact safe_delete_schedule user _ ∅ s

theorem safe_request {request : Request} {tx : Transaction} (h : request.begins s = some tx) :
    discipline.Safe tx ∅ s := by
  cases request with
  | request user_id call =>
    obtain ⟨user, huser, rfl⟩ := Option.map_eq_some_iff.1 h
    exact safe_call (summaryOf_some huser) call
  | set_user_status user_id active =>
    cases h
    refine commits_of fun s1 _ hinv s2 hwrite => ?_
    cases hwrite
    have husers : ∀ id, ((s1.users.update (fun k _ => decide (k = user_id))
        (fun u => { u with active := active })).rows id).map User.company_id =
          (s1.users.rows id).map User.company_id := by
      intro id
      rw [Table.rows_update, Option.map_map]
      congr 1
      funext u
      rw [Function.comp_apply]
      split_ifs <;> rfl
    refine ⟨⟨hinv.defaults, hinv.subscribed, hinv.placed, hinv.homed.rewrite husers
      ((alike_refl SamePlace.refl _).place fun _ _ hs => hs) (alike_refl SameParties.refl _)
      (alike_refl SameOwner.refl _)⟩, ?_⟩
    exact ⟨husers, fun _ hne => (hne rfl).elim, fun _ hne => (hne rfl).elim,
      fun _ _ he _ hne => (hne he).elim⟩

theorem Inv.start (h : workspace.Start db) : Inv db := by
  obtain ⟨hcalendars, hsubs, hevents⟩ := h
  refine ⟨⟨fun _ _ _ _ _ hc => ?_, fun _ _ _ hc => ?_⟩, fun _ _ hsub => ?_, fun _ _ he => ?_,
    fun _ _ hc => ?_, fun _ _ he => ?_, fun _ _ hsub => ?_⟩
  · rw [hcalendars] at hc
    cases hc
  · rw [hcalendars] at hc
    cases hc
  · rw [hsubs] at hsub
    cases hsub
  · rw [hevents] at he
    cases he
  · rw [hcalendars] at hc
    cases hc
  · rw [hevents] at he
    cases he
  · rw [hsubs] at hsub
    cases hsub

theorem inv_of_reachable {w : Database.World Db Key Unit} (h : Reachable w) : Inv w.db := by
  have hwithin : workspace.machine.Reach (Database.Within discipline) w :=
    h.mono fun w e _ => Database.within_of_good (fun _ _ _ => trivial) w e
  exact (workspace.kept_of_reach (fun _ hs => Inv.start hs)
    (fun _ _ _ _ hbegins => safe_request hbegins) hwithin).inv

/-! ## What is shared -/

/-- The default calendars of a user. -/
def defaults (db : Db) (user_id : String) : Finset String :=
  db.calendars.select (fun _ c => owned user_id c && c.is_default)

theorem mem_defaults {id : String} : id ∈ defaults db user_id ↔
    ∃ c, db.calendars.rows id = some c ∧ owned user_id c = true ∧ c.is_default = true := by
  unfold defaults
  rw [Table.mem_select]
  simp only [Bool.and_eq_true]

theorem Defaults.card_le_one (h : Defaults db.calendars) (user_id : String) :
    (defaults db user_id).card ≤ 1 := by
  rw [Finset.card_le_one]
  intro id hid id' hid'
  obtain ⟨c, hc, howned, hdef⟩ := mem_defaults.1 hid
  obtain ⟨c', hc', howned', hdef'⟩ := mem_defaults.1 hid'
  exact h.one id id' c c' user_id hc hc' howned howned' hdef hdef'

theorem Defaults.card_eq_one (h : Defaults db.calendars) {id : String}
    (hc : db.calendars.rows id = some c) (howned : owned user_id c = true) :
    (defaults db user_id).card = 1 := by
  obtain ⟨id', c', hc', howned', hdef'⟩ := h.any id c user_id hc howned
  have hpos : 0 < (defaults db user_id).card :=
    Finset.card_pos.2 ⟨id', mem_defaults.2 ⟨c', hc', howned', hdef'⟩⟩
  have hle := h.card_le_one user_id
  omega

/-- The subscription is active, and became so while the calendar was public or by its owner. -/
def GrantedTo (db : Db) (reader_id calendar_id : String) (c : Calendar) : Prop :=
  ∃ id sub, db.subscriptions.rows id = some sub ∧ sub.calendar_id = calendar_id ∧
    sub.subscriber_user_id = reader_id ∧ sub.status = .active ∧
    ∃ o, sub.origin = some o ∧ (o.visibility = .public ∨ o.actor = c.owner_user_id)

theorem mem_list_schedules {id : String} {e : ScheduleEvent} :
    (id, e) ∈ list_schedules db user ↔ db.events.rows id = some e ∧ listed db user e = true := by
  unfold list_schedules
  rw [List.mem_filter, Table.mem_orderedBy]

/-- What a list shows of the active event of another active user. -/
theorem Inv.listed_iff (h : Inv db) {reader : AuthUserSummary}
    (hreader : Member db reader.userId reader.companyId) {id : String} {e : ScheduleEvent}
    (hrow : db.events.rows id = some e) (hactive : e.status = .active)
    (hother : e.owner_user_id ≠ reader.userId) {owner : User}
    (howner : db.users.rows e.owner_user_id = some owner) (hopen : owner.active = true) :
    listed db reader e = true ↔ ∃ c, db.calendars.rows e.calendar_id = some c ∧
      c.status = .active ∧ c.visibility ≠ .private ∧ GrantedTo db reader.userId e.calendar_id c := by
  obtain ⟨c, hc, howned⟩ := h.placed id e hrow hactive
  have hhome : owner.company_id = e.company_id := by
    obtain ⟨row, hrow', hcompany⟩ := h.homed.events id e hrow
    rw [howner] at hrow'
    cases hrow'
    exact hcompany
  have hplace : c.company_id = e.company_id := by
    have hmember := h.homed.calendars _ c hc
    rw [(owned_iff.1 howned).1] at hmember
    exact hmember.unique (h.homed.events id e hrow)
  have hlisted : listed db reader e = true ↔ e.company_id = reader.companyId ∧
      c.visibility ≠ .private ∧ (db.subscriptions.select (fun _ sub =>
        decide (sub.calendar_id = e.calendar_id) && decide (sub.subscriber_user_id = reader.userId) &&
          decide (sub.status = .active))).Nonempty := by
    simp only [listed, hc, howner, Option.any_some, (owned_iff.1 howned).2, hopen, hhome, hactive,
      hother, decide_true, decide_false, Bool.true_and, Bool.false_or, Bool.and_true,
      Bool.and_eq_true, decide_eq_true_eq]
    constructor
    · rintro ⟨hcompany, hsub, hvisible⟩
      exact ⟨hcompany, hvisible, hsub⟩
    · rintro ⟨hcompany, hvisible, hsub⟩
      exact ⟨hcompany, hsub, hvisible⟩
  rw [hlisted]
  constructor
  · rintro ⟨-, hvisible, k, hk⟩
    rw [Table.mem_select] at hk
    obtain ⟨sub, hsub, hfound⟩ := hk
    simp only [Bool.and_eq_true, decide_eq_true_eq] at hfound
    obtain ⟨⟨hcalendar, hsubscriber⟩, hstatus⟩ := hfound
    have hs := h.subscribed_at (hcalendar ▸ hc) hsub (isOpen_iff.2 (.inr hstatus)) rfl
    exact ⟨c, hc, (owned_iff.1 howned).2, hvisible, k, sub, hsub, hcalendar, hsubscriber, hstatus,
      hs.origin hstatus⟩
  · rintro ⟨c', hc', -, hvisible, k, sub, hsub, hcalendar, hsubscriber, hstatus, -⟩
    rw [hc] at hc'
    cases hc'
    refine ⟨?_, hvisible, k, ?_⟩
    · obtain ⟨hmember, c', hc', hcompany⟩ := h.homed.subscriptions k sub hsub
      rw [hcalendar, hc] at hc'
      cases hc'
      rw [hsubscriber] at hmember
      exact hplace.symm.trans (hcompany.trans (hmember.unique hreader))
    · rw [Table.mem_select]
      exact ⟨sub, hsub, by simp [hcalendar, hsubscriber, hstatus]⟩

/-- In every committed state: one default calendar for each owner of active ones; subscriptions only
where the calendar allows them; events only in the active calendars of their owners; and of the
events of the others a reader is shown those that they let him see. -/
theorem calendars_are_shared_as_granted {w : Database.World Db Key Unit} (h : Reachable w) :
    (∀ user_id, (defaults w.db user_id).card ≤ 1 ∧
      ∀ id c, w.db.calendars.rows id = some c → owned user_id c = true →
        (defaults w.db user_id).card = 1) ∧
    (∀ id sub c, w.db.subscriptions.rows id = some sub →
      w.db.calendars.rows sub.calendar_id = some c →
      (c.visibility = .private ∨ c.status = .deleted →
        sub.status ≠ .pending ∧ sub.status ≠ .active) ∧
      (c.visibility = .public → sub.status ≠ .pending)) ∧
    (∀ id e, w.db.events.rows id = some e → e.status = .active →
      ∃ c, w.db.calendars.rows e.calendar_id = some c ∧ owned e.owner_user_id c = true) ∧
    ∀ (reader : AuthUserSummary) id e owner, Member w.db reader.userId reader.companyId →
      w.db.events.rows id = some e → e.status = .active → e.owner_user_id ≠ reader.userId →
      w.db.users.rows e.owner_user_id = some owner → owner.active = true →
      ((id, e) ∈ list_schedules w.db reader ↔ ∃ c, w.db.calendars.rows e.calendar_id = some c ∧
        c.status = .active ∧ c.visibility ≠ .private ∧
        GrantedTo w.db reader.userId e.calendar_id c) := by
  have hinv := inv_of_reachable h
  refine ⟨fun user_id => ⟨hinv.defaults.card_le_one user_id, fun id c hc howned =>
    hinv.defaults.card_eq_one hc howned⟩, fun id sub c hsub hc => ?_, hinv.placed, ?_⟩
  · have hopen : sub.isOpen = true → Subscribed sub c := fun hopen =>
      hinv.subscribed_at hc hsub hopen rfl
    refine ⟨fun hgone => ?_, fun hpublic hpending => ?_⟩
    · have hclosed : sub.isOpen ≠ true := by
        intro hisOpen
        have hs := hopen hisOpen
        rcases hgone with hprivate | hdeleted
        · exact hs.visible hprivate
        · rw [hs.active] at hdeleted
          cases hdeleted
      exact ⟨fun hp => hclosed (isOpen_iff.2 (.inl hp)), fun ha => hclosed (isOpen_iff.2 (.inr ha))⟩
    · have hs := (hopen (isOpen_iff.2 (.inl hpending))).pending hpending
      rw [hpublic] at hs
      cases hs
  · intro reader id e owner hreader hrow hactive hother howner hstatus
    rw [mem_list_schedules, ← hinv.listed_iff hreader hrow hactive hother howner hstatus]
    exact and_iff_right hrow

/-- Two colleagues. -/
def office : Db where
  users := (Table.empty.set "alice" ⟨"co", true⟩).set "bob" ⟨"co", true⟩
  calendars := .empty
  subscriptions := .empty
  events := .empty

def meeting : SchedulePayload :=
  ⟨"Planning", 1, 2, "", "", [], "none", none, [], "Asia/Seoul", none⟩

def session (t : Nat) (user_id : String) (call : Call) (statements : Nat) :
    List (Database.Event Request) :=
  .begin t (.request user_id call) :: List.replicate statements (.go t)

/-- Alice opens her calendar, Bob subscribes to it, and she enters a meeting. -/
def openRun : List (Database.Event Request) :=
  session 1 "alice" (.list_calendars "c1" 1) 5 ++
  session 1 "alice" (.update_calendar "c1" ⟨none, none, some .public, none, 0⟩) 4 ++
  session 2 "bob" (.create_calendar_subscription "sub1" "c1") 4 ++
  session 1 "alice" (.create_schedule "s1" meeting "c2" 2) 4

def openEnd : Database.World Db Key Unit :=
  (workspace.machine.run ⟨office, .free, fun _ => none⟩ openRun).get (by decide)

theorem openEnd_reachable : Reachable openEnd :=
  Machine.reachable_of_run ⟨⟨rfl, rfl, rfl⟩, rfl, fun _ => rfl⟩ (Option.some_get _).symm

theorem bob_is_shown_the_meeting :
    ("s1", ⟨"co", "alice", "c1", .active, meeting⟩) ∈ list_schedules openEnd.db ⟨"bob", "co"⟩ :=
  ((calendars_are_shared_as_granted openEnd_reachable).2.2.2 ⟨"bob", "co"⟩ "s1" _ ⟨"co", true⟩
    ⟨⟨"co", true⟩, by decide +kernel, rfl⟩ (by decide +kernel) rfl (by decide) (by decide +kernel)
    rfl).2
    ⟨⟨"co", "alice", "내 일정", "#0f766e", 0, true, .public, 1, .active, 1⟩, by decide +kernel, rfl,
      nofun, "sub1", ⟨"co", "c1", "bob", .active, 0, some ⟨"bob", .public⟩⟩, by decide +kernel, rfl,
      rfl, rfl, _, rfl, .inl rfl⟩

end moaworks.calendars
