-- The limit of three active administrators in runs of overlapping
-- transactions: what the lock guards, and what it leaves to the roles.
import MoaWorks.AdminLimit

namespace moaworks.admin_active_limit

/-! ## Administrators of a view -/

namespace Db

variable {db own other : Db} {id : String}

theorem mem_admins : id ∈ db.admins ↔
    ∃ user, db.users.rows id = some user ∧ db.is_active_admin user = true := by
  unfold admins
  rw [Table.mem_select]

theorem mem_admins_of_row {user : User} (h : db.users.rows id = some user) :
    id ∈ db.admins ↔ db.is_active_admin user = true := by
  rw [mem_admins]
  simp [h]

theorem overlay_empty (db : Db) : db.overlay empty = db := by
  simp [overlay, empty, Table.overlay_empty]

theorem overlay_put_user (db own : Db) (id : String) (new : User) :
    db.overlay (own.put_user id new) = (db.overlay own).put_user id new := by
  simp [overlay, put_user, Table.overlay_set]

theorem overlay_put_role (db own : Db) (id : String) (new : Role) :
    db.overlay (own.put_role id new) = (db.overlay own).put_role id new := by
  simp [overlay, put_role, Table.overlay_set]

/-- Two transactions have written different rows. -/
structure Apart (own other : Db) : Prop where
  users : ∀ id, own.users.rows id = none ∨ other.users.rows id = none
  roles : ∀ id, own.roles.rows id = none ∨ other.roles.rows id = none

theorem overlay_comm (db : Db) (h : Apart own other) :
    (db.overlay own).overlay other = (db.overlay other).overlay own := by
  unfold overlay
  rw [Table.overlay_comm db.users h.users, Table.overlay_comm db.roles h.roles]

theorem privileged_overlay (db own : Db) (role_id : String) :
    (db.overlay own).privileged role_id =
      ((own.roles.rows role_id).or (db.roles.rows role_id)).any Role.privileged := rfl

/-- A transaction without a row of the role sees the role as it was. -/
theorem privileged_overlay_of_none (db : Db) {role_id : String}
    (h : own.roles.rows role_id = none) :
    (db.overlay own).privileged role_id = db.privileged role_id := by
  rw [privileged_overlay, h]
  rfl

/-- An active administrator stays one where his role is no less privileged. -/
theorem is_active_admin_mono {db' : Db} {user : User}
    (h : db.privileged user.role_id = true → db'.privileged user.role_id = true)
    (ha : db.is_active_admin user = true) : db'.is_active_admin user = true := by
  simp only [is_active_admin, Bool.and_eq_true, Bool.or_eq_true] at ha ⊢
  obtain ⟨hstatus, htype | hrole⟩ := ha
  · exact ⟨hstatus, Or.inl htype⟩
  · exact ⟨hstatus, Or.inr (h hrole)⟩

theorem is_active_admin_put_user (db : Db) (id : String) (new user : User) :
    (db.put_user id new).is_active_admin user = db.is_active_admin user := rfl

/-- A new row of one user changes nothing for the others. -/
theorem mem_admins_put_user_ne {new : User} {k : String} (h : k ≠ id) :
    k ∈ (db.put_user id new).admins ↔ k ∈ db.admins := by
  rw [mem_admins, mem_admins]
  simp only [put_user, Table.rows_set_ne _ _ h]
  rfl

theorem mem_admins_put_user_self {new : User} :
    id ∈ (db.put_user id new).admins ↔ db.is_active_admin new = true := by
  have hrow : (db.put_user id new).users.rows id = some new := Table.rows_set_self _ _ _
  rw [mem_admins_of_row hrow, is_active_admin_put_user]

/-- Who was an administrator already, or is none with the new row, adds nobody. -/
theorem admins_put_user_subset {new : User}
    (h : db.is_active_admin new = true → id ∈ db.admins) :
    (db.put_user id new).admins ⊆ db.admins := by
  intro k hk
  by_cases hid : k = id
  · subst hid
    exact h (mem_admins_put_user_self.1 hk)
  · exact (mem_admins_put_user_ne hid).1 hk

/-- A role row that is no more privileged than before adds nobody. -/
theorem admins_put_role_subset {new : Role}
    (h : new.privileged = true → db.privileged id = true) :
    (db.put_role id new).admins ⊆ db.admins := by
  intro k hk
  obtain ⟨user, hrow, ha⟩ := mem_admins.1 hk
  apply mem_admins.2
  refine ⟨user, hrow, is_active_admin_mono (fun hrole => ?_) ha⟩
  by_cases hid : user.role_id = id
  · rw [hid]
    apply h
    simpa [privileged, put_role, hid] using hrole
  · simpa [privileged, put_role, Table.rows_set_ne _ _ hid] using hrole

end Db

/-! ## What the counts bound -/

theorem old_is_active_admin_iff {view : Db} {id : String} :
    old_is_active_admin view id = true ↔ id ∈ view.admins := by
  rw [Db.mem_admins, old_is_active_admin, Option.any_eq_true]

/-- The user trigger counts everyone else, so one more makes at most three. -/
theorem card_admins_of_count {view : Db} {id : String} (new : User)
    (h : ¬ 3 ≤ active_admin_count view id) : (view.put_user id new).admins.card ≤ 3 := by
  have hsub : (view.put_user id new).admins ⊆ insert id
      (view.users.select (fun k user => decide (k ≠ id) && view.is_active_admin user)) := by
    intro k hk
    rw [Finset.mem_insert]
    by_cases hid : k = id
    · exact Or.inl hid
    · obtain ⟨user, hrow, ha⟩ := Db.mem_admins.1 ((Db.mem_admins_put_user_ne hid).1 hk)
      right
      rw [Table.mem_select]
      exact ⟨user, hrow, by simp [hid, ha]⟩
  have hle := Finset.card_le_card hsub
  have hinsert := Finset.card_insert_le id
    (view.users.select (fun k user => decide (k ≠ id) && view.is_active_admin user))
  unfold active_admin_count at h
  omega

/-- The role trigger: whoever the role makes an administrator is among its
active users of another type. -/
theorem admins_put_role {view : Db} {id : String} {new : Role} :
    (view.put_role id new).admins ⊆ view.admins ∪ newlyPrivileged view id := by
  intro k hk
  obtain ⟨user, hrow, ha⟩ := Db.mem_admins.1 hk
  have hrow' : view.users.rows k = some user := hrow
  rw [Finset.mem_union]
  by_cases hid : user.role_id = id
  · simp only [Db.is_active_admin, Bool.and_eq_true, decide_eq_true_eq] at ha
    by_cases htype : user.user_type = "admin"
    · left
      apply Db.mem_admins.2
      exact ⟨user, hrow', by simp [Db.is_active_admin, ha.1, htype]⟩
    · right
      unfold newlyPrivileged
      rw [Table.mem_select]
      exact ⟨user, hrow', by simp [hid, ha.1, htype]⟩
  · left
    apply Db.mem_admins.2
    refine ⟨user, hrow', Db.is_active_admin_mono (fun hrole => ?_) ha⟩
    simpa [Db.privileged, Db.put_role, Table.rows_set_ne _ _ hid] using hrole

theorem card_admins_of_newly {view : Db} {id : String} {new : Role} {current : Nat}
    (hcurrent : view.admins.card ≤ current) (hthree : view.admins.card ≤ 3)
    (h : ¬ (0 < newly_privileged_user_count view id ∧
      3 < current + newly_privileged_user_count view id)) :
    (view.put_role id new).admins.card ≤ 3 := by
  have hsub : (view.put_role id new).admins ⊆ view.admins ∪ newlyPrivileged view id :=
    admins_put_role
  have hle := Finset.card_le_card hsub
  have hunion := Finset.card_union_le view.admins (newlyPrivileged view id)
  unfold newly_privileged_user_count at h
  omega

/-! ## The invariant -/

/-- The user whose row the trigger of the phase is about. -/
def Phase.user : Phase → Option String
  | .checking id _ | .waiting id _ => some id
  | _ => none

def Phase.role : Phase → Option String
  | .role_waiting id _ | .role_counting id _ _ => some id
  | _ => none

/-- The transaction has the locks of the rows that it wrote or is about to write. -/
structure Owned (t : Nat) (user_locks role_locks : Locks String Nat) (tx : Tx) : Prop where
  users : ∀ id, (tx.own.users.rows id).isSome → user_locks.holder id = some t
  roles : ∀ id, (tx.own.roles.rows id).isSome → role_locks.holder id = some t
  user_phase : ∀ id, tx.phase.user = some id → user_locks.holder id = some t
  role_phase : ∀ id, tx.phase.role = some id → role_locks.holder id = some t

/-- What holds between the committed rows, the open transactions and the
advisory lock. Its holder may add administrators, up to three; no other
transaction adds one to those that are committed. -/
structure Guarded (w : World) : Prop where
  owned : ∀ t tx, w.txs.rows t = some tx → Owned t w.user_locks w.role_locks tx
  bounded : w.committed.admins.card ≤ 3
  unlocked_roles : ∀ t tx, w.txs.rows t = some tx → w.advisory ≠ some t →
    ∀ id role, tx.own.roles.rows id = some role → role.privileged = true →
      w.committed.privileged id = true
  unlocked_adds_none : ∀ t tx, w.txs.rows t = some tx → w.advisory ≠ some t →
    (w.view tx).admins ⊆ w.committed.admins
  locked_bounded : ∀ t tx, w.txs.rows t = some tx → w.advisory = some t →
    (w.view tx).admins.card ≤ 3
  counting : ∀ t tx, w.txs.rows t = some tx → ∀ id new current,
    tx.phase = .role_counting id new current →
      w.advisory = some t ∧ (w.view tx).admins.card ≤ current

variable {w w' : World} {t : Nat}

namespace Guarded

/-- No open transaction sees more than three active administrators. -/
theorem view_bounded (hi : Guarded w) {tx : Tx} (htx : w.txs.rows t = some tx) :
    (w.view tx).admins.card ≤ 3 := by
  by_cases hlock : w.advisory = some t
  · exact hi.locked_bounded t tx htx hlock
  · have hsub := Finset.card_le_card (hi.unlocked_adds_none t tx htx hlock)
    have hthree := hi.bounded
    omega

/-- Row locks keep the rows of two transactions apart. -/
theorem apart (hi : Guarded w) {u : Nat} {tx other : Tx} (htx : w.txs.rows t = some tx)
    (hother : w.txs.rows u = some other) (hne : u ≠ t) : Db.Apart tx.own other.own := by
  constructor
  · intro id
    by_contra hboth
    rw [not_or, ← ne_eq, ← ne_eq, Option.ne_none_iff_isSome, Option.ne_none_iff_isSome] at hboth
    have h1 := (hi.owned t tx htx).users id hboth.1
    have h2 := (hi.owned u other hother).users id hboth.2
    rw [h1] at h2
    exact hne (Option.some.inj h2).symm
  · intro id
    by_contra hboth
    rw [not_or, ← ne_eq, ← ne_eq, Option.ne_none_iff_isSome, Option.ne_none_iff_isSome] at hboth
    have h1 := (hi.owned t tx htx).roles id hboth.1
    have h2 := (hi.owned u other hother).roles id hboth.2
    rw [h1] at h2
    exact hne (Option.some.inj h2).symm

end Guarded

/-! ## Two transactions at a commit -/

/-- The question of the user trigger, asked again over the rows of another
transaction: nobody whose row is in `own` turns into an active administrator. -/
def addsNone (db under own : Db) : Prop :=
  ∀ id ∈ own.users.keys, id ∈ ((db.overlay under).overlay own).admins → id ∈ (db.overlay under).admins

instance (db under own : Db) : Decidable (addsNone db under own) :=
  inferInstanceAs (Decidable (∀ id ∈ own.users.keys, _ → _))

/-- At a commit, and for each other open transaction: whichever of the two has
not taken the advisory lock adds no administrator over what the other wrote. -/
def settled (w : World) : Action → Prop
  | .commit t => ∀ tx ∈ w.txs.rows t, ∀ u ∈ w.txs.keys, u ≠ t → ∀ other ∈ w.txs.rows u,
      if w.advisory = some u then addsNone w.committed other.own tx.own
      else addsNone w.committed tx.own other.own
  | _ => True

instance (w : World) (a : Action) : Decidable (settled w a) :=
  match a with
  | .commit t => inferInstanceAs (Decidable (∀ tx ∈ w.txs.rows t, ∀ u ∈ w.txs.keys, u ≠ t →
      ∀ other ∈ w.txs.rows u, if w.advisory = some u then addsNone w.committed other.own tx.own
        else addsNone w.committed tx.own other.own))
  | .begin _ | .write_user _ _ _ | .check_new _ | .count _ | .write_role _ _ _ | .count_newly _
  | .abort _ => isTrue trivial

/-- A transaction without the lock that adds no administrator by its user rows adds none at all. -/
theorem admins_of_addsNone (hi : Guarded w) {u : Nat} {tx other : Tx}
    (htx : w.txs.rows t = some tx) (hother : w.txs.rows u = some other) (hne : u ≠ t)
    (hunlocked : w.advisory ≠ some t) (h : addsNone w.committed other.own tx.own) :
    ((w.committed.overlay other.own).overlay tx.own).admins ⊆
      (w.committed.overlay other.own).admins := by
  intro id hid
  cases hown : tx.own.users.rows id with
  | some user =>
    apply h id _ hid
    rw [Table.mem_keys, hown]
    rfl
  | none =>
    obtain ⟨user, hrow, ha⟩ := Db.mem_admins.1 hid
    have hrow' : (w.committed.overlay other.own).users.rows id = some user := by
      simpa [Db.overlay, hown] using hrow
    apply Db.mem_admins.2
    refine ⟨user, hrow', Db.is_active_admin_mono (fun hrole => ?_) ha⟩
    cases hpending : tx.own.roles.rows user.role_id with
    | none =>
      rw [Db.privileged_overlay_of_none _ hpending] at hrole
      exact hrole
    | some role =>
      have hnone : other.own.roles.rows user.role_id = none := by
        rcases (hi.apart htx hother hne).roles user.role_id with h' | h'
        · rw [hpending] at h'
          cases h'
        · exact h'
      have hprivileged : role.privileged = true := by
        simpa [Db.privileged_overlay, hpending] using hrole
      rw [Db.privileged_overlay_of_none _ hnone]
      exact hi.unlocked_roles t tx htx hunlocked _ role hpending hprivileged

/-! ## What one statement does -/

/-- The statements `a` of transaction `t`, by what they do to the administrators. -/
inductive Does (w : World) (t : Nat) (a : Action) : World → Prop
  | begins (hnone : w.txs.rows t = none) : Does w t a (w.set t ⟨.empty, .ready⟩)
  /-- Without the advisory lock: what the transaction sees gets no new administrator. -/
  | keeps (tx tx' : Tx) (user_locks role_locks : Locks String Nat) (htx : w.txs.rows t = some tx)
      (husers : ∀ u k, w.user_locks.holder k = some u → user_locks.holder k = some u)
      (hroles : ∀ u k, w.role_locks.holder k = some u → role_locks.holder k = some u)
      (howned : Owned t user_locks role_locks tx')
      (hsub : (w.view tx').admins ⊆ (w.view tx).admins)
      (hprivileged : ∀ id role, tx'.own.roles.rows id = some role → role.privileged = true →
        tx.own.roles.rows id = some role ∨ (w.view tx).privileged id = true)
      (hphase : ∀ id new current, tx'.phase ≠ .role_counting id new current) :
      Does w t a { w.set t tx' with user_locks := user_locks, role_locks := role_locks }
  /-- Under the advisory lock: what the transaction sees has at most three. -/
  | guards (tx tx' : Tx) (htx : w.txs.rows t = some tx)
      (hfree : ∀ u, w.advisory = some u → u = t)
      (howned : Owned t w.user_locks w.role_locks tx')
      (hthree : (w.view tx').admins.card ≤ 3)
      (hcount : ∀ id new current, tx'.phase = .role_counting id new current →
        (w.view tx').admins.card ≤ current) :
      Does w t a { w.set t tx' with advisory := some t }
  | closes : Does w t a (w.close t)
  | commits (ha : a = .commit t) (tx : Tx) (htx : w.txs.rows t = some tx) :
      Does w t a { w.close t with committed := w.view tx }

variable {a : Action}

def Action.tx : Action → Nat
  | .begin t | .write_user t _ _ | .check_new t | .count t | .write_role t _ _ | .count_newly t
  | .commit t | .abort t => t

theorem view_put_user (w : World) (tx : Tx) (id : String) (new : User) :
    w.view (tx.put_user id new) = (w.view tx).put_user id new :=
  Db.overlay_put_user _ _ _ _

theorem view_put_role (w : World) (tx : Tx) (id : String) (new : Role) :
    w.view (tx.put_role id new) = (w.view tx).put_role id new :=
  Db.overlay_put_role _ _ _ _

theorem Owned.put_user {user_locks role_locks : Locks String Nat} {tx : Tx} {id : String}
    (h : Owned t user_locks role_locks tx) (hlock : user_locks.holder id = some t) (new : User) :
    Owned t user_locks role_locks (tx.put_user id new) where
  users := by
    intro k hk
    by_cases hid : k = id
    · rw [hid]
      exact hlock
    · apply h.users k
      simpa [Tx.put_user, Db.put_user, Table.rows_set_ne _ _ hid] using hk
  roles := h.roles
  user_phase := by simp [Tx.put_user, Phase.user]
  role_phase := by simp [Tx.put_user, Phase.role]

theorem Owned.put_role {user_locks role_locks : Locks String Nat} {tx : Tx} {id : String}
    (h : Owned t user_locks role_locks tx) (hlock : role_locks.holder id = some t) (new : Role) :
    Owned t user_locks role_locks (tx.put_role id new) where
  users := h.users
  roles := by
    intro k hk
    by_cases hid : k = id
    · rw [hid]
      exact hlock
    · apply h.roles k
      simpa [Tx.put_role, Db.put_role, Table.rows_set_ne _ _ hid] using hk
  user_phase := by simp [Tx.put_role, Phase.user]
  role_phase := by simp [Tx.put_role, Phase.role]

/-- More locks, and a phase that has the locks that it needs. -/
theorem Owned.turn {user_locks role_locks user_locks' role_locks' : Locks String Nat} {tx : Tx}
    (h : Owned t user_locks role_locks tx)
    (husers : ∀ k, user_locks.holder k = some t → user_locks'.holder k = some t)
    (hroles : ∀ k, role_locks.holder k = some t → role_locks'.holder k = some t) {phase : Phase}
    (huser : ∀ id, phase.user = some id → user_locks'.holder id = some t)
    (hrole : ∀ id, phase.role = some id → role_locks'.holder id = some t) :
    Owned t user_locks' role_locks' { tx with phase := phase } where
  users := fun id hid => husers id (h.users id hid)
  roles := fun id hid => hroles id (h.roles id hid)
  user_phase := huser
  role_phase := hrole

theorem holder_take_open {l : Locks String Nat} {id : String} (h : l.open_to t id = true)
    (u : Nat) (k : String) (hk : l.holder k = some u) : (l.take t id).holder k = some u := by
  by_cases hu : u = t
  · subst hu
    by_cases hid : k = id
    · rw [hid, Locks.holder_take_self]
    · rw [Locks.holder_take_ne _ _ hid, hk]
  · exact Locks.holder_take_of_open h hk hu

theorem write_user_does (hi : Guarded w) {tx : Tx} {id : String} {new : User}
    (htx : w.txs.rows t = some tx) (h : write_user w t tx id new = some w') : Does w t a w' := by
  unfold write_user at h
  split_ifs at h with hc hold
  · cases h
    obtain ⟨hready, hopen⟩ := hc
    have howned : Owned t (w.user_locks.take t id) w.role_locks { tx with phase := .ready } :=
      (hi.owned t tx htx).turn (fun k => holder_take_open hopen t k) (fun _ hk => hk)
        (by simp [Phase.user]) (by simp [Phase.role])
    apply Does.keeps tx (tx.put_user id new) _ _ htx (holder_take_open hopen) (fun _ _ hk => hk)
    · exact howned.put_user (Locks.holder_take_self _ _ _) new
    · rw [view_put_user]
      exact Db.admins_put_user_subset (fun _ => old_is_active_admin_iff.1 hold)
    · intro k role hrole _
      exact Or.inl hrole
    · simp [Tx.put_user]
  · cases h
    obtain ⟨hready, hopen⟩ := hc
    apply Does.keeps tx { tx with phase := .checking id new } _ _ htx (holder_take_open hopen)
      (fun _ _ hk => hk)
    · apply (hi.owned t tx htx).turn (fun k => holder_take_open hopen t k) (fun _ hk => hk)
      · intro k hk
        obtain rfl : id = k := by simpa [Phase.user] using hk
        exact Locks.holder_take_self _ _ _
      · simp [Phase.role]
    · exact Finset.Subset.refl _
    · intro k role hrole _
      exact Or.inl hrole
    · simp

theorem check_new_does (hi : Guarded w) {tx : Tx} (htx : w.txs.rows t = some tx)
    (h : check_new w t tx = some w') : Does w t a w' := by
  unfold check_new at h
  split at h
  · rename_i id new hphase
    have howned := hi.owned t tx htx
    have hlock := howned.user_phase id (by simp [hphase, Phase.user])
    cases h
    split_ifs with hnew
    · apply Does.keeps tx { tx with phase := .waiting id new } _ _ htx (fun _ _ hk => hk)
        (fun _ _ hk => hk)
      · apply howned.turn (fun _ hk => hk) (fun _ hk => hk)
        · intro k hk
          obtain rfl : id = k := by simpa [Phase.user] using hk
          exact hlock
        · simp [Phase.role]
      · exact Finset.Subset.refl _
      · intro k role hrole _
        exact Or.inl hrole
      · simp
    · apply Does.keeps tx (tx.put_user id new) _ _ htx (fun _ _ hk => hk) (fun _ _ hk => hk)
      · exact howned.put_user hlock new
      · rw [view_put_user]
        exact Db.admins_put_user_subset (fun hadmin => absurd hadmin hnew)
      · intro k role hrole _
        exact Or.inl hrole
      · simp [Tx.put_user]
  · cases h

theorem count_does (hi : Guarded w) {tx : Tx} (htx : w.txs.rows t = some tx)
    (h : count w t tx = some w') : Does w t a w' := by
  unfold count at h
  split_ifs at h with hfree
  have hfree' : ∀ u, w.advisory = some u → u = t := by
    intro u hu
    rcases hfree with hf | hf
    · rw [hf] at hu
      cases hu
    · rw [hf] at hu
      exact (Option.some.inj hu).symm
  have howned := hi.owned t tx htx
  split at h
  · rename_i id new hphase
    split_ifs at h with hthree
    · cases h
      exact .closes
    · cases h
      apply Does.guards tx (tx.put_user id new) htx hfree'
      · exact howned.put_user (howned.user_phase id (by simp [hphase, Phase.user])) new
      · rw [view_put_user]
        exact card_admins_of_count new hthree
      · simp [Tx.put_user]
  · rename_i id new hphase
    cases h
    apply Does.guards tx _ htx hfree'
    · apply howned.turn (fun _ hk => hk) (fun _ hk => hk)
      · simp [Phase.user]
      · intro k hk
        obtain rfl : id = k := by simpa [Phase.role] using hk
        exact howned.role_phase id (by simp [hphase, Phase.role])
    · change (w.view tx).admins.card ≤ 3
      exact hi.view_bounded htx
    · intro k role current hk
      obtain ⟨_, _, rfl⟩ := Phase.role_counting.inj hk
      exact le_refl _
  · cases h

theorem write_role_does (hi : Guarded w) {tx : Tx} {id : String} {new : Role}
    (htx : w.txs.rows t = some tx) (h : write_role w t tx id new = some w') : Does w t a w' := by
  unfold write_role at h
  split_ifs at h with hc
  obtain ⟨hready, hopen⟩ := hc
  split at h
  · cases h
  · rename_i old hold
    cases h
    split_ifs with hgain
    · apply Does.keeps tx { tx with phase := .role_waiting id new } _ _ htx (fun _ _ hk => hk)
        (holder_take_open hopen)
      · apply (hi.owned t tx htx).turn (fun _ hk => hk) (fun k => holder_take_open hopen t k)
        · simp [Phase.user]
        · intro k hk
          obtain rfl : id = k := by simpa [Phase.role] using hk
          exact Locks.holder_take_self _ _ _
      · exact Finset.Subset.refl _
      · intro k role hrole _
        exact Or.inl hrole
      · simp
    · have hkept : new.privileged = true → (w.view tx).privileged id = true := by
        intro hnew
        have hboth : old.privileged = true := by simpa [hnew] using hgain
        simp [Db.privileged, hold, hboth]
      have howned : Owned t w.user_locks (w.role_locks.take t id) { tx with phase := .ready } :=
        (hi.owned t tx htx).turn (fun _ hk => hk) (fun k => holder_take_open hopen t k)
          (by simp [Phase.user]) (by simp [Phase.role])
      apply Does.keeps tx (tx.put_role id new) _ _ htx (fun _ _ hk => hk) (holder_take_open hopen)
      · exact howned.put_role (Locks.holder_take_self _ _ _) new
      · rw [view_put_role]
        exact Db.admins_put_role_subset hkept
      · intro k role hrole hprivileged
        by_cases hid : k = id
        · subst hid
          obtain rfl : new = role := by simpa [Tx.put_role, Db.put_role] using hrole
          exact Or.inr (hkept hprivileged)
        · left
          simpa [Tx.put_role, Db.put_role, Table.rows_set_ne _ _ hid] using hrole
      · simp [Tx.put_role]

theorem count_newly_does (hi : Guarded w) {tx : Tx} (htx : w.txs.rows t = some tx)
    (h : count_newly w t tx = some w') : Does w t a w' := by
  unfold count_newly at h
  split at h
  · rename_i id new current hphase
    obtain ⟨hlock, hcurrent⟩ := hi.counting t tx htx id new current hphase
    have howned := hi.owned t tx htx
    dsimp only at h
    split_ifs at h with hmany
    · cases h
      exact .closes
    · cases h
      have hguards : Does w t a { w.set t (tx.put_role id new) with advisory := some t } := by
        apply Does.guards tx _ htx
        · intro u hu
          rw [hlock] at hu
          exact (Option.some.inj hu).symm
        · exact howned.put_role (howned.role_phase id (by simp [hphase, Phase.role])) new
        · rw [view_put_role]
          exact card_admins_of_newly hcurrent (hi.view_bounded htx) hmany
        · simp [Tx.put_role]
      rw [← hlock] at hguards
      exact hguards
  · cases h

theorem step_does (hi : Guarded w) (h : step w a = some w') :
    Does w a.tx a w' := by
  cases a with
  | begin t =>
    simp only [step] at h
    split_ifs at h with hnone
    cases h
    exact .begins hnone
  | write_user t id new =>
    obtain ⟨tx, htx, h⟩ := Option.bind_eq_some_iff.1 h
    exact write_user_does hi htx h
  | check_new t =>
    obtain ⟨tx, htx, h⟩ := Option.bind_eq_some_iff.1 h
    exact check_new_does hi htx h
  | count t =>
    obtain ⟨tx, htx, h⟩ := Option.bind_eq_some_iff.1 h
    exact count_does hi htx h
  | write_role t id new =>
    obtain ⟨tx, htx, h⟩ := Option.bind_eq_some_iff.1 h
    exact write_role_does hi htx h
  | count_newly t =>
    obtain ⟨tx, htx, h⟩ := Option.bind_eq_some_iff.1 h
    exact count_newly_does hi htx h
  | commit t =>
    obtain ⟨tx, htx, h⟩ := Option.bind_eq_some_iff.1 h
    unfold commit at h
    split_ifs at h
    cases h
    exact .commits rfl tx htx
  | abort t =>
    obtain ⟨tx, _, rfl⟩ := Option.map_eq_some_iff.1 h
    exact .closes

/-! ## Each statement keeps the invariant -/

theorem txs_set_eq_some {tx : Tx} {u : Nat} {other : Tx}
    (h : (w.txs.set t tx).rows u = some other) :
    (u = t ∧ other = tx) ∨ (u ≠ t ∧ w.txs.rows u = some other) := by
  rw [Table.rows_set] at h
  split_ifs at h with hu
  · exact Or.inl ⟨hu, (Option.some.inj h).symm⟩
  · exact Or.inr ⟨hu, h⟩

/-- The others keep their locks when a transaction ends. -/
theorem Owned.released {u : Nat} {tx : Tx} (h : Owned u w.user_locks w.role_locks tx)
    (hu : u ≠ t) : Owned u (w.close t).user_locks (w.close t).role_locks tx where
  users := fun id hid => Locks.holder_release.2 ⟨h.users id hid, hu⟩
  roles := fun id hid => Locks.holder_release.2 ⟨h.roles id hid, hu⟩
  user_phase := fun id hid => Locks.holder_release.2 ⟨h.user_phase id hid, hu⟩
  role_phase := fun id hid => Locks.holder_release.2 ⟨h.role_phase id hid, hu⟩

theorem advisory_close {u : Nat} (hu : u ≠ t) :
    (w.close t).advisory = some u ↔ w.advisory = some u := by
  unfold World.close
  dsimp only
  split_ifs with h
  · rw [h]
    simp [hu.symm]
  · exact Iff.rfl

theorem Owned.empty (t : Nat) (user_locks role_locks : Locks String Nat) :
    Owned t user_locks role_locks ⟨.empty, .ready⟩ where
  users := by simp [Db.empty]
  roles := by simp [Db.empty]
  user_phase := by simp [Phase.user]
  role_phase := by simp [Phase.role]

theorem Owned.kept {u : Nat} {user_locks role_locks user_locks' role_locks' : Locks String Nat}
    {tx : Tx} (h : Owned u user_locks role_locks tx)
    (husers : ∀ u k, user_locks.holder k = some u → user_locks'.holder k = some u)
    (hroles : ∀ u k, role_locks.holder k = some u → role_locks'.holder k = some u) :
    Owned u user_locks' role_locks' tx :=
  h.turn (fun k => husers u k) (fun k => hroles u k) (fun id hid => husers u id (h.user_phase id hid))
    (fun id hid => hroles u id (h.role_phase id hid))

namespace Guarded

theorem begins (hi : Guarded w) : Guarded (w.set t ⟨.empty, .ready⟩) := by
  have hview : w.view ⟨.empty, .ready⟩ = w.committed := Db.overlay_empty _
  constructor
  case bounded => exact hi.bounded
  all_goals intro u tx htx
  all_goals rcases txs_set_eq_some htx with ⟨rfl, rfl⟩ | ⟨hu, hother⟩
  case owned.inl => exact Owned.empty _ _ _
  case owned.inr => exact hi.owned u tx hother
  case unlocked_roles.inl => simp [Db.empty]
  case unlocked_roles.inr => exact hi.unlocked_roles u tx hother
  case unlocked_adds_none.inl =>
    intro _
    change (w.view ⟨.empty, .ready⟩).admins ⊆ w.committed.admins
    rw [hview]
  case unlocked_adds_none.inr => exact hi.unlocked_adds_none u tx hother
  case locked_bounded.inl =>
    intro _
    change (w.view ⟨.empty, .ready⟩).admins.card ≤ 3
    rw [hview]
    exact hi.bounded
  case locked_bounded.inr => exact hi.locked_bounded u tx hother
  case counting.inl => simp
  case counting.inr => exact hi.counting u tx hother

theorem keeps (hi : Guarded w) {tx tx' : Tx} {user_locks role_locks : Locks String Nat}
    (htx : w.txs.rows t = some tx)
    (husers : ∀ u k, w.user_locks.holder k = some u → user_locks.holder k = some u)
    (hroles : ∀ u k, w.role_locks.holder k = some u → role_locks.holder k = some u)
    (howned : Owned t user_locks role_locks tx')
    (hsub : (w.view tx').admins ⊆ (w.view tx).admins)
    (hprivileged : ∀ id role, tx'.own.roles.rows id = some role → role.privileged = true →
      tx.own.roles.rows id = some role ∨ (w.view tx).privileged id = true)
    (hphase : ∀ id new current, tx'.phase ≠ .role_counting id new current) :
    Guarded { w.set t tx' with user_locks := user_locks, role_locks := role_locks } := by
  constructor
  case bounded => exact hi.bounded
  all_goals intro u other hrow
  all_goals rcases txs_set_eq_some hrow with ⟨rfl, rfl⟩ | ⟨hu, hother⟩
  case owned.inl => exact howned
  case owned.inr => exact (hi.owned u other hother).kept husers hroles
  case unlocked_roles.inl =>
    intro hunlocked id role hrole hpriv
    have hbefore := hi.unlocked_roles u tx htx hunlocked id
    rcases hprivileged id role hrole hpriv with hold | hold
    · exact hbefore role hold hpriv
    · unfold World.view at hold
      rw [Db.privileged_overlay] at hold
      cases hpending : tx.own.roles.rows id with
      | none =>
        rw [hpending] at hold
        exact hold
      | some role' =>
        rw [hpending] at hold
        exact hbefore role' hpending hold
  case unlocked_roles.inr => exact hi.unlocked_roles u other hother
  case unlocked_adds_none.inl =>
    intro hunlocked
    exact hsub.trans (hi.unlocked_adds_none u tx htx hunlocked)
  case unlocked_adds_none.inr => exact hi.unlocked_adds_none u other hother
  case locked_bounded.inl =>
    intro hlocked
    exact (Finset.card_le_card hsub).trans (hi.locked_bounded u tx htx hlocked)
  case locked_bounded.inr => exact hi.locked_bounded u other hother
  case counting.inl =>
    intro id new current hcounting
    exact absurd hcounting (hphase id new current)
  case counting.inr => exact hi.counting u other hother

theorem guards (hi : Guarded w) {tx tx' : Tx} (htx : w.txs.rows t = some tx)
    (hfree : ∀ u, w.advisory = some u → u = t)
    (howned : Owned t w.user_locks w.role_locks tx') (hthree : (w.view tx').admins.card ≤ 3)
    (hcount : ∀ id new current, tx'.phase = .role_counting id new current →
      (w.view tx').admins.card ≤ current) :
    Guarded { w.set t tx' with advisory := some t } := by
  have hothers : ∀ u, u ≠ t → w.advisory ≠ some u := fun u hu hlock => hu (hfree u hlock)
  constructor
  case bounded => exact hi.bounded
  all_goals intro u other hrow
  all_goals rcases txs_set_eq_some hrow with ⟨rfl, rfl⟩ | ⟨hu, hother⟩
  case owned.inl => exact howned
  case owned.inr => exact hi.owned u other hother
  case unlocked_roles.inl => exact fun hunlocked => absurd rfl hunlocked
  case unlocked_roles.inr => exact fun _ => hi.unlocked_roles u other hother (hothers u hu)
  case unlocked_adds_none.inl => exact fun hunlocked => absurd rfl hunlocked
  case unlocked_adds_none.inr => exact fun _ => hi.unlocked_adds_none u other hother (hothers u hu)
  case locked_bounded.inl => exact fun _ => hthree
  case locked_bounded.inr =>
    intro hlocked
    exact absurd (Option.some.inj hlocked).symm hu
  case counting.inl => exact fun id new current hphase => ⟨rfl, hcount id new current hphase⟩
  case counting.inr =>
    intro id new current hphase
    exact absurd (hi.counting u other hother id new current hphase).1 (hothers u hu)

theorem closes (hi : Guarded w) : Guarded (w.close t) := by
  constructor
  case bounded => exact hi.bounded
  all_goals intro u other hrow
  all_goals obtain ⟨hu, hother⟩ := Table.rows_erase_eq_some.1 hrow
  case owned => exact (hi.owned u other hother).released hu
  case unlocked_roles =>
    intro hunlocked
    rw [ne_eq, advisory_close hu] at hunlocked
    exact hi.unlocked_roles u other hother hunlocked
  case unlocked_adds_none =>
    intro hunlocked
    rw [ne_eq, advisory_close hu] at hunlocked
    exact hi.unlocked_adds_none u other hother hunlocked
  case locked_bounded =>
    intro hlocked
    rw [advisory_close hu] at hlocked
    exact hi.locked_bounded u other hother hlocked
  case counting =>
    intro id new current hphase
    rw [advisory_close hu]
    exact hi.counting u other hother id new current hphase

/-- What another transaction sees after the commit of `t`, when one of the two is settled. -/
theorem commits (hi : Guarded w) {tx : Tx} (htx : w.txs.rows t = some tx)
    (hok : settled w (.commit t)) : Guarded { w.close t with committed := w.view tx } := by
  have hsettled : ∀ u other, u ≠ t → w.txs.rows u = some other →
      if w.advisory = some u then addsNone w.committed other.own tx.own
      else addsNone w.committed tx.own other.own := by
    intro u other hu hother
    apply hok tx htx u _ hu other hother
    rw [Table.mem_keys, hother]
    rfl
  -- the holder of the lock sees no more administrators than it counted
  have hholder : ∀ u other, u ≠ t → w.txs.rows u = some other → w.advisory = some u →
      ((w.view tx).overlay other.own).admins ⊆ (w.view other).admins := by
    intro u other hu hother hlock
    have hsettled := hsettled u other hu hother
    rw [if_pos hlock] at hsettled
    have hunlocked : w.advisory ≠ some t := by
      intro hlock'
      rw [hlock] at hlock'
      exact hu (Option.some.inj hlock')
    unfold World.view
    rw [Db.overlay_comm _ (hi.apart htx hother hu)]
    exact admins_of_addsNone hi htx hother hu hunlocked hsettled
  constructor
  case bounded => exact hi.view_bounded htx
  all_goals intro u other hrow
  all_goals obtain ⟨hu, hother⟩ := Table.rows_erase_eq_some.1 hrow
  case owned => exact (hi.owned u other hother).released hu
  case unlocked_roles =>
    intro hunlocked id role hrole hpriv
    change (w.close t).advisory ≠ some u at hunlocked
    rw [ne_eq, advisory_close hu] at hunlocked
    have hnone : tx.own.roles.rows id = none := by
      rcases (hi.apart htx hother hu).roles id with h' | h'
      · exact h'
      · rw [hrole] at h'
        cases h'
    change (w.committed.overlay tx.own).privileged id = true
    rw [Db.privileged_overlay_of_none _ hnone]
    exact hi.unlocked_roles u other hother hunlocked id role hrole hpriv
  case unlocked_adds_none =>
    intro hunlocked
    change (w.close t).advisory ≠ some u at hunlocked
    rw [ne_eq, advisory_close hu] at hunlocked
    have hsettled := hsettled u other hu hother
    rw [if_neg hunlocked] at hsettled
    exact admins_of_addsNone hi hother htx hu.symm hunlocked hsettled
  case locked_bounded =>
    intro hlocked
    change (w.close t).advisory = some u at hlocked
    rw [advisory_close hu] at hlocked
    exact (Finset.card_le_card (hholder u other hu hother hlocked)).trans
      (hi.locked_bounded u other hother hlocked)
  case counting =>
    intro id new current hphase
    obtain ⟨hlocked, hcurrent⟩ := hi.counting u other hother id new current hphase
    refine ⟨(advisory_close hu).2 hlocked, ?_⟩
    exact (Finset.card_le_card (hholder u other hu hother hlocked)).trans hcurrent

theorem step (hi : Guarded w) (hd : Does w t a w') (hok : settled w a) : Guarded w' := by
  cases hd with
  | begins hnone => exact hi.begins
  | keeps tx tx' user_locks role_locks htx husers hroles howned hsub hprivileged hphase =>
    exact hi.keeps htx husers hroles howned hsub hprivileged hphase
  | guards tx tx' htx hfree howned hthree hcount => exact hi.guards htx hfree howned hthree hcount
  | closes => exact hi.closes
  | commits ha tx htx =>
    subst ha
    exact hi.commits htx hok

theorem start (h : Start w) : Guarded w := by
  obtain ⟨hempty, _, hthree⟩ := h
  constructor
  case bounded => exact hthree
  all_goals intro u tx htx
  all_goals rw [hempty] at htx
  all_goals cases htx

end Guarded

/-! ## The result -/

/-- In every run in which each commit is settled, at most three active
administrators are committed. -/
theorem at_most_three_active_admins (h : machine.Reach settled w) :
    w.committed.admins.card ≤ 3 := by
  have hi : Guarded w := by
    apply h.invariant
    · intro s hs
      exact Guarded.start hs
    · intro s a s' _ hi hok hstep
      exact hi.step (step_does hi hstep) hok
  exact hi.bounded

/-! ### A user and his role, changed at the same time -/

def admin : User := ⟨"active", "admin", "staff"⟩

def member (role_id : String) : User := ⟨"active", "member", role_id⟩

/-- The administrators `names`, the member `u` of the role `staff`, and an empty role `ops`. -/
def office (names : List String) : World where
  committed :=
    { users := names.foldl (fun users id => users.set id admin) (Table.empty.set "u" (member "staff"))
      roles := (Table.empty.set "staff" ⟨["mail:read"]⟩).set "ops" ⟨["mail:read"]⟩ }
  txs := .empty
  advisory := none
  user_locks := .free
  role_locks := .free

theorem office_start {names : List String} (h : (office names).committed.admins.card ≤ 3) :
    machine.Start (office names) :=
  ⟨rfl, rfl, h⟩

/-- The role `ops` gets `admin:*`, under the lock and both counts. -/
def promote_ops (t : Nat) : List Action :=
  [.write_role t "ops" ⟨["admin:*"]⟩, .count t, .count_newly t, .commit t]

/-- The user moves to the role before it gets `admin:*`, and then a fourth
administrator is refused. -/
def settledRun : List Action :=
  [.begin 1, .begin 2, .write_user 1 "u" (member "ops"), .check_new 1, .commit 1] ++
    promote_ops 2 ++ [.begin 3, .write_user 3 "v" admin, .check_new 3, .count 3]

def settledEnd : World := (machine.runWithin settled (office ["a", "b"]) settledRun).get (by decide)

theorem the_fourth_admin_is_refused :
    "u" ∈ settledEnd.committed.admins ∧ settledEnd.committed.users.rows "v" = none ∧
      settledEnd.committed.admins.card ≤ 3 :=
  ⟨by decide, by decide, at_most_three_active_admins
    ((Machine.Reach.start (office_start (by decide))).runWithin (Option.some_get _).symm)⟩

/-- The user moves to the role while it gets `admin:*`: his trigger does not
see the new permissions, and that of the role does not see him. -/
def overlappingRun : List Action :=
  [.begin 1, .write_user 1 "u" (member "ops"), .check_new 1, .begin 2] ++ promote_ops 2 ++
    [.commit 1]

def overlappingEnd : World := (machine.run (office ["a", "b", "c"]) overlappingRun).get (by decide)

theorem four_admins_are_active :
    machine.Reachable overlappingEnd ∧ ¬ overlappingEnd.committed.admins.card ≤ 3 :=
  ⟨Machine.reachable_of_run (office_start (by decide)) (Option.some_get _).symm, by decide⟩

end moaworks.admin_active_limit
