-- What the users of the notification center can rely on while their calls run side by side: an
-- archived notification stays away, and nobody changes what another one sees.
import MoaWorks.NotificationCenter

namespace moaworks.notification_center

/-! ## What a user sees -/

/-- The user has archived the notification. -/
def Db.Archived (db : Db) (user_id id : String) : Prop :=
  (db.states.rows (id, user_id)).map UserState.status = some .archived

instance (db : Db) (user_id id : String) : Decidable (db.Archived user_id id) :=
  inferInstanceAs (Decidable (_ = _))

/-- The status that a user sees of a notification, when he can see it at all. -/
def Db.seenStatus (db : Db) (user_id id : String) : Option Status :=
  ((db.notifications.rows id).filter (fun record => _is_visible record user_id false)).map
    (fun record => ((db.states.rows (id, user_id)).map UserState.status).getD record.status)

/-- The answer has the notification. -/
def Reply.Shows (id : String) : Reply → Prop
  | listed response => id ∈ response.notifications.map NotificationEnvelope.notificationId
  | notification item => item.notificationId = id
  | _ => False

/-- The user lists his notifications, or opens one of them. -/
def Call.Reads (user_id : String) : Call → Prop
  | list_notifications u _ => u = user_id
  | get_notification u _ => u = user_id
  | _ => False

/-! ## The requests -/

section Requests

variable {R : Db → Db → Prop} {G : Db → Transaction → Prop}

theorem returns_select {α : Type} {f : Db → Except Error α} {P : α → Db → Prop} {s : Db}
    (hread : ∀ s, G s .read) (hf : ∀ s' a, R s s' → f s' = .ok a → P a s') :
    (select f).Returns Transaction.commit R G P s :=
  Session.returns_transact (fun s' _ => hread s') hf

/-- The states that a request loads are those of the moment in which it goes on. -/
theorem returns_load_states (hread : ∀ s, G s .read) (user_id : String) (ids : List String)
    (s : Db) : (_load_states user_id ids).Returns Transaction.commit R G
      (fun states s => ∀ id ∈ ids, states id = s.states.rows (id, user_id)) s := by
  unfold _load_states
  split_ifs with hempty
  · rw [List.isEmpty_iff] at hempty
    subst hempty
    exact Session.returns_pure nofun
  · refine returns_select hread (fun s' states _ hstates id hid => ?_)
    cases hstates
    exact if_pos hid

theorem apply_state_id (item : NotificationEnvelope) (state : Option UserState) :
    (_apply_state item state).notificationId = item.notificationId := by
  cases state <;> rfl

theorem apply_state_status (item : NotificationEnvelope) (state : Option UserState) :
    (_apply_state item state).record.status =
      (state.map UserState.status).getD item.record.status := by
  cases state <;> rfl

/-- Nothing on a page is archived in the states from which it is made. -/
theorem not_archived_of_page {filter : ListFilter} {base : List NotificationEnvelope}
    {states : String → Option UserState} {id : String}
    (h : id ∈ (page filter base states).notifications.map NotificationEnvelope.notificationId) :
    id ∈ base.map NotificationEnvelope.notificationId ∧
      (states id).map UserState.status ≠ some .archived := by
  obtain ⟨current, hcurrent, rfl⟩ := List.mem_map.1 h
  obtain ⟨hmem, hshows⟩ := List.mem_filter.1 (List.mem_of_mem_take hcurrent)
  obtain ⟨item, hitem, rfl⟩ := List.mem_map.1 hmem
  rw [apply_state_id]
  refine ⟨List.mem_map_of_mem hitem, fun harchived => ?_⟩
  unfold ListFilter.shows at hshows
  rw [apply_state_status, harchived] at hshows
  simp at hshows

theorem returns_list_notifications (hread : ∀ s, G s .read) (user_id : String)
    (filter : ListFilter) (s : Db) : (list_notifications user_id filter).Returns
      Transaction.commit R G (fun response s => ∀ id,
        id ∈ response.notifications.map NotificationEnvelope.notificationId →
          ¬ s.Archived user_id id) s := by
  unfold list_notifications
  refine (returns_select (P := fun _ _ => True) hread (fun _ _ _ _ => trivial)).bind
    (fun base s _ => ?_)
  refine (returns_load_states hread user_id _ s).bind (fun states s hstates => ?_)
  refine Session.returns_pure (fun id hid => ?_)
  obtain ⟨hbase, hstatus⟩ := not_archived_of_page hid
  unfold Db.Archived
  rw [← hstates id hbase]
  exact hstatus

theorem returns_get_db (hread : ∀ s, G s .read) (user_id notification_id : String) (s : Db) :
    (select (fun db => _get_notification_db db user_id notification_id false)).Returns
      Transaction.commit R G (fun item _ => item.notificationId = notification_id) s := by
  refine returns_select hread (fun s' item _ hitem => ?_)
  unfold _get_notification_db at hitem
  split at hitem
  · cases hitem
  · split_ifs at hitem
    cases hitem
    rfl

theorem returns_get_notification (hread : ∀ s, G s .read) (user_id notification_id : String)
    (s : Db) : (get_notification user_id notification_id).Returns Transaction.commit R G
      (fun item s => item.notificationId = notification_id ∧
        ¬ s.Archived user_id notification_id) s := by
  unfold get_notification
  refine (returns_get_db hread user_id notification_id s).bind (fun item s hid => ?_)
  refine (returns_load_states hread user_id _ s).bind (fun states s hstates => ?_)
  simp only
  split_ifs with harchived
  · exact Session.returns_raise
  · refine Session.returns_pure ⟨(apply_state_id ..).trans hid, fun hrow => harchived ?_⟩
    unfold Db.Archived at hrow
    rw [apply_state_status, hstates notification_id List.mem_cons_self, hrow]
    rfl

theorem returns_mark_read (hread : ∀ s, G s .read) {user_id : String} {now : Time}
    (hwrite : ∀ s changed, G s (.write_read user_id changed now)) (ids : List String) (s : Db) :
    (mark_read user_id ids now).Returns Transaction.commit R G (fun _ _ => True) s := by
  unfold mark_read _validate_targets
  refine (Session.returns_mapM (P := fun _ _ => True) _ (fun id s => ?_) s).bind
    (fun items s _ => ?_)
  · exact (returns_get_notification hread user_id id s).mono (fun _ _ _ => trivial)
  · refine (returns_load_states hread user_id _ s).bind (fun states s _ => ?_)
    exact Session.returns_transact (fun s _ => hwrite s _) (fun _ _ _ _ => trivial)

theorem returns_mark_all_read (hread : ∀ s, G s .read) {user_id : String} {now : Time}
    (hwrite : ∀ s changed, G s (.write_read user_id changed now)) (severities : List String)
    (category : Option String) (s : Db) : (mark_all_read user_id severities category now).Returns
      Transaction.commit R G (fun _ _ => True) s := by
  unfold mark_all_read
  refine (returns_list_notifications hread user_id _ s).bind (fun response s _ => ?_)
  split_ifs with hempty
  · exact Session.returns_pure trivial
  · exact returns_mark_read hread hwrite _ s

theorem returns_validate_archived_targets (hread : ∀ s, G s .read) (user_id : String)
    (ids : List String) (s : Db) : (_validate_archived_targets user_id ids).Returns
      Transaction.commit R G
        (fun items _ => items.map NotificationEnvelope.notificationId = ids.eraseDups) s := by
  unfold _validate_archived_targets
  refine (Session.returns_mapM (P := fun id item => item.notificationId = id) _
    (fun id s => returns_get_db hread user_id id s) s).bind (fun items s hitems => ?_)
  refine (returns_load_states hread user_id _ s).bind (fun states s _ => ?_)
  refine Session.returns_pure ?_
  rw [List.map_map]
  have hids : items.map NotificationEnvelope.notificationId = ids.eraseDups := by
    generalize ids.eraseDups = unique at hitems
    induction hitems with
    | nil => rfl
    | cons hid _ ih => rw [List.map_cons, hid, ih]
  rw [← hids]
  exact List.map_congr_left (fun item _ => apply_state_id item _)

/-- When an archive writes, each of its targets is written or archived already: what it read as
archived has stayed so. -/
theorem returns_archive (hread : ∀ s, G s .read) {user_id : String} {ids : List String}
    {now : Time} (hR : ∀ s s', R s s' → ∀ id, s.Archived user_id id → s'.Archived user_id id)
    (hwrite : ∀ s changed, (∀ id ∈ ids, id ∈ changed ∨ s.Archived user_id id) →
      G s (.write_archived user_id changed now)) (s : Db) :
    (archive user_id ids now).Returns Transaction.commit R G (fun _ _ => True) s := by
  unfold archive
  refine (returns_validate_archived_targets hread user_id ids s).bind (fun items s hitems => ?_)
  refine (returns_load_states hread user_id _ s).bind (fun states s hstates => ?_)
  refine Session.returns_transact (fun s' hs' => hwrite s' _ ?_) (fun _ _ _ _ => trivial)
  intro id hid
  have hmem : id ∈ items.map NotificationEnvelope.notificationId := by
    rw [hitems]
    exact List.mem_eraseDups.2 hid
  by_cases hstatus : (states id).map UserState.status = some .archived
  · refine Or.inr (hR s s' hs' id ?_)
    unfold Db.Archived
    rw [← hstates id hmem]
    exact hstatus
  · exact Or.inl (List.mem_filter.2 ⟨hmem, by simpa using hstatus⟩)

end Requests

/-! ## The laws -/

/-- What each call keeps to: users write their own states, and an archive leaves none of its
targets out. -/
def Guarantee (k : Call) (db : Db) : Transaction → Prop
  | .read => True
  | .emit _ _ _ _ => k.user_id = none
  | .ack _ actor_user_id _ _ => k.user_id = some actor_user_id
  | .write_read user_id _ _ => k.user_id = some user_id
  | .write_archived user_id changed _ => k.user_id = some user_id ∧
    ∀ u ids now, k = .archive u ids now → ∀ id ∈ ids, id ∈ changed ∨ db.Archived u id

/-- A list or a single notification has nothing that the user has archived. -/
def Answer (k : Call) (r : Except Error Reply) (db : Db) : Prop :=
  ∀ user_id, k.Reads user_id → ∀ reply, r = .ok reply → ∀ id, reply.Shows id →
    ¬ db.Archived user_id id

/-- What was archived is archived. -/
def ArchivedKept (db db' : Db) : Prop :=
  ∀ user_id id, db.Archived user_id id → db'.Archived user_id id

theorem program_meets (k : Call) (db : Db) :
    (k.program).Meets Transaction.commit ArchivedKept (Guarantee k) (Answer k) db := by
  have hread : ∀ s, Guarantee k s .read := fun _ => trivial
  suffices hreturns : (k.program).Returns Transaction.commit ArchivedKept (Guarantee k)
      (fun reply s => ∀ user_id, k.Reads user_id → ∀ id, reply.Shows id →
        ¬ s.Archived user_id id) db by
    refine Session.Meets.mono hreturns ?_
    exact fun r s hr user_id hreads reply hreply id => hr reply hreply user_id hreads id
  cases k with
  | list_notifications user_id filter =>
    refine (returns_list_notifications hread user_id filter db).map (fun response s h => ?_)
    rintro _ rfl id hid
    exact h id hid
  | get_notification user_id notification_id =>
    refine (returns_get_notification hread user_id notification_id db).map (fun item s h => ?_)
    rintro _ rfl id rfl
    rw [h.1]
    exact h.2
  | summary user_id =>
    refine Session.Returns.map (P := fun _ _ => True) ?_ (fun _ _ _ _ => False.elim)
    exact (returns_list_notifications hread user_id _ db).bind
      (fun _ _ _ => Session.returns_pure trivial)
  | mark_read user_id ids now =>
    exact (returns_mark_read hread (fun _ _ => rfl) ids db).map (fun _ _ _ _ => False.elim)
  | mark_all_read user_id severities category now =>
    exact (returns_mark_all_read hread (fun _ _ => rfl) severities category db).map
      (fun _ _ _ _ => False.elim)
  | archive user_id ids now =>
    refine (returns_archive hread (fun s s' h => h user_id) (fun s changed h => ?_) db).map
      (fun _ _ _ _ => False.elim)
    refine ⟨rfl, ?_⟩
    rintro u _ _ hk
    cases hk
    exact h
  | ack_notification notification_id actor_user_id include_admin now =>
    refine Session.Returns.map (P := fun _ _ => True) ?_ (fun _ _ _ _ => False.elim)
    exact Session.returns_transact (fun _ _ => rfl) (fun _ _ _ _ => trivial)
  | emit_event event built_at now merged_at =>
    exact Session.returns_transact (fun _ _ => rfl) (fun _ _ _ _ _ => False.elim)

/-! ## The transactions -/

/-- Upserts of one user leave the states of the others, and write those of the listed. -/
theorem rows_foldl_states {f : Db → String → Db} {user_id : String} {P : UserState → Prop}
    (hnotifications : ∀ db id, (f db id).notifications = db.notifications)
    (hother : ∀ db id, ∀ key ≠ (id, user_id), (f db id).states.rows key = db.states.rows key)
    (hown : ∀ db id, ∃ state, (f db id).states.rows (id, user_id) = some state ∧ P state)
    (changed : List String) (db : Db) :
    (changed.foldl f db).notifications = db.notifications ∧
    (∀ id u, u ≠ user_id ∨ id ∉ changed →
      (changed.foldl f db).states.rows (id, u) = db.states.rows (id, u)) ∧
    ∀ id ∈ changed, ∃ state, (changed.foldl f db).states.rows (id, user_id) = some state ∧
      P state := by
  induction changed generalizing db with
  | nil => exact ⟨rfl, fun _ _ _ => rfl, nofun⟩
  | cons c changed ih =>
    obtain ⟨ihnotifications, ihother, ihown⟩ := ih (f db c)
    rw [List.foldl_cons]
    refine ⟨ihnotifications.trans (hnotifications db c), fun id u h => ?_, fun id hid => ?_⟩
    · rw [ihother id u (h.imp_right (fun hid hmem => hid (List.mem_cons_of_mem _ hmem)))]
      apply hother
      rintro heq
      obtain ⟨rfl, rfl⟩ := Prod.mk.inj heq
      rcases h with h | h
      · exact h rfl
      · exact h List.mem_cons_self
    · by_cases hmem : id ∈ changed
      · exact ihown id hmem
      · obtain rfl : id = c := (List.mem_cons.1 hid).resolve_right hmem
        rw [ihother id user_id (Or.inr hmem)]
        exact hown db id

theorem rows_write_read (user_id : String) (changed : List String) (now : Time) (db : Db) :
    let db' := (Transaction.write_read user_id changed now).commit db
    db'.notifications = db.notifications ∧
    (∀ id u, u ≠ user_id ∨ id ∉ changed →
      db'.states.rows (id, u) = db.states.rows (id, u)) ∧
    ∀ id ∈ changed, ∃ state, db'.states.rows (id, user_id) = some state ∧
      state.status = .read :=
  rows_foldl_states (f := fun db id => db.writeRead user_id now id)
    (P := fun state => state.status = .read) (fun _ _ => rfl)
    (fun _ _ _ hkey => Table.rows_set_ne _ _ hkey)
    (fun _ _ => ⟨_, Table.rows_set_self .., rfl⟩) changed db

theorem rows_write_archived (user_id : String) (changed : List String) (now : Time) (db : Db) :
    let db' := (Transaction.write_archived user_id changed now).commit db
    db'.notifications = db.notifications ∧
    (∀ id u, u ≠ user_id ∨ id ∉ changed →
      db'.states.rows (id, u) = db.states.rows (id, u)) ∧
    ∀ id ∈ changed, ∃ state, db'.states.rows (id, user_id) = some state ∧
      state.status = .archived :=
  rows_foldl_states (f := fun db id => db.writeArchived user_id now id)
    (P := fun state => state.status = .archived) (fun _ _ => rfl)
    (fun _ _ _ hkey => Table.rows_set_ne _ _ hkey)
    (fun _ _ => ⟨_, Table.rows_set_self .., rfl⟩) changed db

theorem states_emit (db : Db) (event : EventEnvelope) (built_at now merged_at : Time) :
    (_emit_event_db db event built_at now merged_at).states = db.states := by
  unfold _emit_event_db
  simp only
  generalize _find_recent_notification_row db (_build_notification_record event built_at) now =
    recent
  cases recent with
  | some row => rfl
  | none => split_ifs <;> rfl

theorem states_ack (notification_id actor_user_id : String) (include_admin : Bool) (now : Time)
    (db : Db) : ((Transaction.ack notification_id actor_user_id include_admin now).commit
      db).states = db.states := by
  unfold Transaction.commit
  simp only
  split
  · rfl
  · rfl

/-- What a transaction must find: a `mark_read` that writes finds nothing archived that it is
about to mark, and an `ack_notification` finds the row read already, or a state of his own for
each other user who sees it. -/
def Allowed (db : Db) : Transaction → Prop
  | .write_read user_id changed _ => ∀ id ∈ changed, ¬ db.Archived user_id id
  | .ack notification_id actor_user_id include_admin _ => ∀ record,
    db.notifications.rows notification_id = some record →
      _is_visible record actor_user_id include_admin = true → record.status = .read ∨
        ∀ u ≠ actor_user_id, _is_visible record u false = true →
          (db.states.rows (notification_id, u)).isSome = true
  | _ => True

theorem archivedKept_of_states {db db' : Db} (h : db'.states = db.states) :
    ArchivedKept db db' := by
  intro user_id id harchived
  unfold Db.Archived
  rw [h]
  exact harchived

theorem archivedKept_commit {db : Db} {t : Transaction} (hallowed : Allowed db t) :
    ArchivedKept db (t.commit db) := by
  cases t with
  | read => exact fun _ _ => id
  | emit event built_at now merged_at => exact archivedKept_of_states (states_emit ..)
  | ack notification_id actor_user_id include_admin now =>
    exact archivedKept_of_states (states_ack ..)
  | write_read user_id changed now =>
    obtain ⟨_, hother, _⟩ := rows_write_read user_id changed now db
    intro u id harchived
    unfold Db.Archived
    rw [hother id u ?_]
    · exact harchived
    · by_contra hboth
      simp only [ne_eq, not_or, not_not] at hboth
      obtain ⟨rfl, hmem⟩ := hboth
      exact hallowed id hmem harchived
  | write_archived user_id changed now =>
    obtain ⟨_, hother, hown⟩ := rows_write_archived user_id changed now db
    intro u id harchived
    unfold Db.Archived
    by_cases hboth : u ≠ user_id ∨ id ∉ changed
    · rw [hother id u hboth]
      exact harchived
    · simp only [ne_eq, not_or, not_not] at hboth
      obtain ⟨rfl, hmem⟩ := hboth
      obtain ⟨state, hstate, hstatus⟩ := hown id hmem
      rw [hstate, Option.map_some, hstatus]

theorem seenStatus_congr {db db' : Db} {user_id id : String}
    (hrow : db'.notifications.rows id = db.notifications.rows id)
    (hstate : db'.states.rows (id, user_id) = db.states.rows (id, user_id)) :
    db'.seenStatus user_id id = db.seenStatus user_id id := by
  unfold Db.seenStatus
  rw [hrow, hstate]

theorem seenStatus_of_row {db : Db} {user_id id : String} {record : Notification}
    (hrow : db.notifications.rows id = some record) :
    db.seenStatus user_id id = if _is_visible record user_id false = true then
      some (((db.states.rows (id, user_id)).map UserState.status).getD record.status)
    else none := by
  unfold Db.seenStatus
  rw [hrow]
  cases hvisible : _is_visible record user_id false <;> simp [hvisible]

/-- The shared row turns to `read`; who has a state of his own does not see it. -/
theorem seenStatus_ack {db : Db} {notification_id actor_user_id : String} {include_admin : Bool}
    {now : Time} (hallowed : Allowed db (.ack notification_id actor_user_id include_admin now))
    {user_id : String} (hother : user_id ≠ actor_user_id) (id : String) :
    ((Transaction.ack notification_id actor_user_id include_admin now).commit db).seenStatus
      user_id id = db.seenStatus user_id id := by
  cases hrow : db.notifications.rows notification_id with
  | none => simp only [Transaction.commit, _ack_notification_db, hrow]
  | some record =>
    by_cases hvisible : _is_visible record actor_user_id include_admin = true
    · simp only [Transaction.commit, _ack_notification_db, hrow, hvisible, if_true]
      by_cases hid : id = notification_id
      · subst hid
        rw [seenStatus_of_row hrow, seenStatus_of_row (Table.rows_set_self ..)]
        -- Who sees the row does not depend on its status.
        change (if _is_visible record user_id false = true then _ else none) = _
        split_ifs with hsees
        · rcases hallowed record hrow hvisible with hread | hown
          · rw [hread]
          · obtain ⟨state, hstate⟩ := Option.isSome_iff_exists.1 (hown user_id hother hsees)
            rw [hstate]
            rfl
        · rfl
      · exact seenStatus_congr (Table.rows_set_ne _ _ hid) rfl
    · simp only [Transaction.commit, _ack_notification_db, hrow, hvisible, Bool.false_eq_true,
        if_false]

abbrev World := Service.World Db Transaction Error Call Reply

structure Laws (w : World) : Prop where
  /-- After an archive has committed, no list has the notification, and nobody opens it. -/
  archived_stays_away : ∀ a e b, w.log = a ++ e :: b → ∀ user_id ids now changed written,
    e.call = .archive user_id ids now → e.transaction = .write_archived user_id changed written →
      ∀ id ∈ ids, ∀ e' ∈ b, e'.call.Reads user_id → ∀ reply, e'.result = some (.ok reply) →
        ¬ reply.Shows id
  /-- The transactions of a user leave what the others see. -/
  own_status : ∀ e ∈ w.log, ∀ actor, e.call.user_id = some actor → ∀ user_id ≠ actor, ∀ id,
    (e.transaction.commit e.state).seenStatus user_id id = e.state.seenStatus user_id id

/-- In every run whose transactions find what they must, an archived notification stays away and
each user's statuses are his own. -/
theorem statuses_are_own (w : World) (h : service.machine.Reach (Service.Within Allowed) w) :
    Laws w := by
  obtain ⟨_, hentry, _, hordered⟩ := Service.Reach.kept (R := ArchivedKept) (G := Guarantee)
    (Q := Answer) (fun _ _ _ => id) (fun _ _ _ h h' u id harchived => h' u id (h u id harchived))
    program_meets (fun _ _ _ hallowed _ => archivedKept_commit hallowed) h
  constructor
  · intro a e b hlog user_id ids now changed written hcall htransaction id hid e' he' hreads reply
      hresult
    have he : e ∈ w.log := by simp [hlog]
    have hlater : e' ∈ w.log := by simp [hlog, he']
    -- The archive has left none of its targets out.
    have harchived : (e.transaction.commit e.state).Archived user_id id := by
      obtain ⟨hallowed, hguarantee, _⟩ := hentry e he
      rw [htransaction] at hguarantee ⊢
      rcases hguarantee.2 user_id ids now hcall id hid with hmem | hbefore
      · obtain ⟨state, hstate, hstatus⟩ :=
          (rows_write_archived user_id changed written e.state).2.2 id hmem
        unfold Db.Archived
        rw [hstate, Option.map_some, hstatus]
      · rw [htransaction] at hallowed
        exact archivedKept_commit hallowed user_id id hbefore
    rw [hlog, List.pairwise_append, List.pairwise_cons] at hordered
    have hmet := hordered.2.1.1 e' he' user_id id harchived
    obtain ⟨hallowed, _, hanswer⟩ := hentry e' hlater
    exact fun hshows => hanswer _ hresult user_id hreads reply rfl id hshows
      (archivedKept_commit hallowed user_id id hmet)
  · intro e he actor hactor user_id hne id
    obtain ⟨hallowed, hguarantee, _⟩ := hentry e he
    cases ht : e.transaction with
    | read => rfl
    | emit event built_at now merged_at =>
      rw [ht] at hguarantee
      rw [hguarantee] at hactor
      cases hactor
    | ack notification_id actor_user_id include_admin now =>
      rw [ht] at hguarantee hallowed
      obtain rfl := Option.some.inj (hguarantee.symm.trans hactor)
      exact seenStatus_ack hallowed hne id
    | write_read u changed now =>
      rw [ht] at hguarantee
      obtain rfl := Option.some.inj (hguarantee.symm.trans hactor)
      obtain ⟨hnotifications, hother, _⟩ := rows_write_read u changed now e.state
      exact seenStatus_congr (by rw [hnotifications]) (hother id user_id (Or.inl hne))
    | write_archived u changed now =>
      rw [ht] at hguarantee
      obtain rfl := Option.some.inj (hguarantee.1.symm.trans hactor)
      obtain ⟨hnotifications, hother, _⟩ := rows_write_archived u changed now e.state
      exact seenStatus_congr (by rw [hnotifications]) (hother id user_id (Or.inl hne))

/-! ## One notice for Alice and Bob -/

def notice : Notification where
  event_id := "n1"
  company_id := "moa"
  category := .notice
  severity := .INFO
  resource_type := "notice"
  resource_id := "1"
  dedup_key := "notice.posted:1"
  occurrence_count := 1
  occurred_at := 1
  created_at := 1
  payload := []
  status := .unread
  read_at := none
  acknowledged_at := none
  archived_at := none
  visibility := .user
  recipient_user_ids := ["alice", "bob"]
  last_notified_at := 1
  details := ⟨"1.0", "notice.posted", "req", "notice", "", "backend", none, 4320, [], [], [], "both"⟩

def oneNotice : World := ⟨⟨Table.empty.set "n1" notice, .empty⟩, [], []⟩

def worldAfter (events : List (Service.Event Call)) : World :=
  (service.machine.run oneNotice events).getD oneNotice

theorem reachable_worldAfter {events : List (Service.Event Call)}
    (h : (service.machine.run oneNotice events).isSome = true) :
    service.machine.Reachable (worldAfter events) := by
  obtain ⟨w, hw⟩ := Option.isSome_iff_exists.1 h
  unfold worldAfter
  rw [hw]
  exact Machine.reachable_of_run ⟨_, trivial, rfl⟩ hw

/-- Alice's `mark_read` has checked the notice when her `archive` comes, and writes after it. -/
def overlapping : List (Service.Event Call) :=
  [.call (.mark_read "alice" ["n1"] 5), .proceed 0, .proceed 0, .proceed 0,
    .call (.archive "alice" ["n1"] 6), .proceed 1, .proceed 1, .proceed 1, .proceed 1,
    .proceed 0, .call (.get_notification "alice" "n1"), .proceed 2, .proceed 2]

/-- Bob acknowledges the notice, of which Alice has no state of her own. -/
def acknowledged : List (Service.Event Call) :=
  [.call (.ack_notification "n1" "bob" false 5), .proceed 0]

theorem archived_comes_back :
    (service.machine.Reachable (worldAfter overlapping) ∧ ¬ Laws (worldAfter overlapping)) ∧
    service.machine.Reachable (worldAfter acknowledged) ∧ ¬ Laws (worldAfter acknowledged) := by
  refine ⟨⟨reachable_worldAfter (by decide +kernel), fun hlaws => ?_⟩,
    reachable_worldAfter (by decide +kernel), fun hlaws => ?_⟩
  · obtain ⟨e, he, hcall, changed, htransaction⟩ : ∃ e, (worldAfter overlapping).log[6]? = some e ∧
        e.call = .archive "alice" ["n1"] 6 ∧
          ∃ changed, e.transaction = .write_archived "alice" changed 6 := ⟨_, rfl, rfl, _, rfl⟩
    obtain ⟨e', he', hreads, reply, hresult, hshows⟩ : ∃ e',
        ((worldAfter overlapping).log.drop 7)[2]? = some e' ∧ e'.call.Reads "alice" ∧
          ∃ reply, e'.result = some (.ok reply) ∧ reply.Shows "n1" :=
      ⟨_, rfl, rfl, _, rfl, rfl⟩
    obtain ⟨hlt, hget⟩ := List.getElem?_eq_some_iff.1 he
    have hlog : (worldAfter overlapping).log = (worldAfter overlapping).log.take 6 ++
        e :: (worldAfter overlapping).log.drop 7 := by
      rw [← hget, List.cons_getElem_drop_succ, List.take_append_drop]
    exact hlaws.archived_stays_away _ e _ hlog "alice" ["n1"] 6 changed 6 hcall htransaction "n1"
      List.mem_cons_self e' (List.mem_of_getElem? he') hreads reply hresult hshows
  · obtain ⟨e, he, hcall, htransaction, hstate⟩ : ∃ e,
        (worldAfter acknowledged).log[0]? = some e ∧ e.call.user_id = some "bob" ∧
          e.transaction = .ack "n1" "bob" false 5 ∧ e.state = oneNotice.state :=
      ⟨_, rfl, rfl, rfl, rfl⟩
    have hsame := hlaws.own_status e (List.mem_of_getElem? he) "bob" hcall "alice" (by decide) "n1"
    rw [htransaction, hstate] at hsame
    revert hsame
    decide +kernel

/-- A condition that is stricter, and can be evaluated: no acknowledgements at all. -/
def NoAcks (db : Db) : Transaction → Prop
  | .write_read user_id changed _ => ∀ id ∈ changed, ¬ db.Archived user_id id
  | .ack _ _ _ _ => False
  | _ => True

instance (db : Db) (t : Transaction) : Decidable (NoAcks db t) := by
  unfold NoAcks
  split <;> exact inferInstance

/-- Alice reads the notice and archives it, one call after the other, and then lists. -/
theorem one_call_after_the_other : ∃ w, service.machine.Reach (Service.Within Allowed) w ∧
    w.log.length = 10 ∧ Laws w := by
  have hrun : (service.machine.runWithin (Service.Within NoAcks) oneNotice
      [.call (.mark_read "alice" ["n1"] 5), .proceed 0, .proceed 0, .proceed 0, .proceed 0,
        .call (.archive "alice" ["n1"] 6), .proceed 1, .proceed 1, .proceed 1, .proceed 1,
        .call (.list_notifications "alice" everything), .proceed 2, .proceed 2]).any
          (fun w => decide (w.log.length = 10)) = true := by decide +kernel
  obtain ⟨w, hw, hlength⟩ := (Option.any_eq_true _ _).1 hrun
  have hreach : service.machine.Reach (Service.Within NoAcks) w :=
    Machine.Reach.runWithin (.start ⟨_, trivial, rfl⟩) hw
  have hallowed : service.machine.Reach (Service.Within Allowed) w := by
    refine hreach.mono (fun w event hok => ?_)
    cases event with
    | call k => trivial
    | proceed i =>
      intro k t rest hi
      have ht := hok k t rest hi
      cases t with
      | ack => exact ht.elim
      | read => trivial
      | emit => trivial
      | write_read => exact ht
      | write_archived => trivial
  exact ⟨w, hallowed, by simpa using hlength, statuses_are_own w hallowed⟩

end moaworks.notification_center
