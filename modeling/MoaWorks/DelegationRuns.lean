-- What holds in every run of the delegation sessions: the lock of the owner
-- keeps the periods apart, and no committed change is lost.
import MoaWorks.Delegations

namespace moaworks.approval_delegations

open directory_store (AuthUserSummary Directory Error)

variable {w w' : World} {t u : Nat} {session : Session} {actor : AuthUserSummary} {call : Call}
  {current : Option Delegation}

/-! ## Sound sessions -/

/-- The session has the lock of its actor, who is in the company of the summary. -/
structure Owns (w : World) (t : Nat) (actor : AuthUserSummary) : Prop where
  lock : w.owners.holder actor.userId = some t
  company : w.directory.companyOf actor.userId = some actor.companyId

/-- The session replaces a row that it has locked and read, or it creates one. -/
def Based (w : World) (t : Nat) (actor : AuthUserSummary) (call : Call) : Option Delegation → Prop
  | none => call.expected = none
  | some current => call.expected = some current.version ∧
      w.locks.holder call.delegation_id = some t ∧
      owned_delegation w.delegations actor call.delegation_id = some current

/-- An enabled period of the call overlaps no other live delegation of the actor. -/
def Clear (w : World) (actor : AuthUserSummary) (call : Call) : Prop :=
  ∀ payload, call.payload = some payload → payload.enabled = true →
    overlapping w.delegations actor payload.startDate payload.endDate call.exclude_id = ∅

/-- The row that the session has written but not committed. -/
def Writes (w : World) (t : Nat) (actor : AuthUserSummary) (call : Call) (row : Delegation) :
    Option Delegation → Prop
  | none => ∃ delegation_id payload now, call = .create delegation_id payload now ∧
      row = inserted actor payload now ∧ w.locks.holder delegation_id = some t ∧
      w.delegations.rows delegation_id = none
  | some current => row = replaced current call

/-- What a session may rely on, statement by statement. -/
def Sound (w : World) (t : Nat) : Session → Prop
  | .idle _ | .called _ _ | .known _ _ => True
  | .owning actor _ => Owns w t actor
  | .fetched actor call current => Owns w t actor ∧ Based w t actor call (some current)
  | .validated actor call current => Owns w t actor ∧ Based w t actor call current
  | .cleared actor call current =>
    Owns w t actor ∧ Based w t actor call current ∧ Clear w actor call
  | .written actor call current row =>
    Owns w t actor ∧ Based w t actor call current ∧ Clear w actor call ∧
      Writes w t actor call row current

/-- What the others may do between two statements of session `t`: they leave
its locks, the row it has locked and the delegations of its actor alone, and
nobody changes companies. -/
structure Frame (t : Nat) (w w' : World) : Prop where
  companies : ∀ user_id company_id, w.directory.companyOf user_id = some company_id →
    w'.directory.companyOf user_id = some company_id
  owners : ∀ k, w.owners.holder k = some t → w'.owners.holder k = some t
  locks : ∀ k, w.locks.holder k = some t → w'.locks.holder k = some t
  rows : ∀ id, w.locks.holder id = some t → w'.delegations.rows id = w.delegations.rows id
  owned : ∀ actor id row, w.owners.holder actor.userId = some t → row.owned actor = true →
    (w'.delegations.rows id = some row ↔ w.delegations.rows id = some row)

theorem Owns.frame (hframe : Frame t w w') (h : Owns w t actor) : Owns w' t actor :=
  ⟨hframe.owners _ h.lock, hframe.companies _ _ h.company⟩

theorem Based.frame (hframe : Frame t w w') (h : Based w t actor call current) :
    Based w' t actor call current := by
  cases current with
  | none => exact h
  | some current =>
    obtain ⟨hversion, hlock, hrow⟩ := h
    refine ⟨hversion, hframe.locks _ hlock, ?_⟩
    unfold owned_delegation at hrow ⊢
    rw [hframe.rows _ hlock, hrow]

theorem Clear.frame (hframe : Frame t w w') (hown : w.owners.holder actor.userId = some t)
    (h : Clear w actor call) : Clear w' actor call := by
  intro payload hpayload henabled
  have hold := h payload hpayload henabled
  rw [Finset.eq_empty_iff_forall_notMem] at hold ⊢
  intro id hid
  apply hold id
  unfold overlapping at hid ⊢
  rw [Table.mem_select] at hid ⊢
  obtain ⟨row, hrow, hp⟩ := hid
  refine ⟨row, ?_, hp⟩
  have howned : row.owned actor = true := by
    simp only [Bool.and_eq_true] at hp
    exact hp.1.1.1
  exact (hframe.owned actor id row hown howned).1 hrow

theorem Writes.frame (hframe : Frame t w w') {row : Delegation}
    (h : Writes w t actor call row current) : Writes w' t actor call row current := by
  cases current with
  | none =>
    obtain ⟨delegation_id, payload, now, hcall, hrow, hlock, hnone⟩ := h
    refine ⟨delegation_id, payload, now, hcall, hrow, hframe.locks _ hlock, ?_⟩
    rw [hframe.rows _ hlock, hnone]
  | some current => exact h

theorem Sound.frame (hframe : Frame t w w') (h : Sound w t session) : Sound w' t session := by
  cases session with
  | idle | called | known => trivial
  | owning => exact Owns.frame hframe h
  | fetched => exact ⟨h.1.frame hframe, h.2.frame hframe⟩
  | validated => exact ⟨h.1.frame hframe, h.2.frame hframe⟩
  | cleared => exact ⟨h.1.frame hframe, h.2.1.frame hframe, h.2.2.frame hframe h.1.lock⟩
  | written =>
    exact ⟨h.1.frame hframe, h.2.1.frame hframe, h.2.2.1.frame hframe h.1.lock,
      h.2.2.2.frame hframe⟩

/-- A session that another one does not touch keeps what it relies on, as long
as only the sessions differ. -/
theorem Sound.put (h : Sound w t session) (u : Nat) (other : Session) :
    Sound (w.put u other) t session := by
  apply h.frame
  constructor
  · intro _ _ hcompany
    exact hcompany
  · intro _ hk
    exact hk
  · intro _ hk
    exact hk
  · intro _ _
    rfl
  · intro _ _ _ _ _
    exact Iff.rfl

/-! ## What one statement does -/

/-- The statements of session `t`, by what they do to the locks and the rows. -/
inductive Does (w : World) (t : Nat) : World → Prop
  | goes (session : Session) (h : Sound w t session) : Does w t (w.put t session)
  | ends (answer : Option (Except Error Delegation)) : Does w t (w.finish t answer)
  | owns (actor : AuthUserSummary) (call : Call) (hopen : w.owners.open_to t actor.userId = true)
      (hcompany : w.directory.companyOf actor.userId = some actor.companyId) :
      Does w t { w.put t (.owning actor call) with owners := w.owners.take t actor.userId }
  | locks (id : String) (session : Session) (hopen : w.locks.open_to t id = true)
      (h : Sound { w with locks := w.locks.take t id } t session) :
      Does w t { w.put t session with locks := w.locks.take t id }
  | commits (actor : AuthUserSummary) (call : Call) (current : Option Delegation) (row : Delegation)
      (hs : w.sessions t = .written actor call current row) :
      Does w t { w.finish t (some (.ok row)) with
        delegations := w.delegations.set call.delegation_id row }

theorem Does.check {result : Except Error Unit}
    (h : result = .ok () → Sound w t session) : Does w t (w.check t result session) := by
  unfold World.check
  cases result with
  | ok _ => exact Does.goes session (h rfl)
  | error error => exact Does.ends _

theorem actor_does (h : approval_delegations.actor w t = some w') : Does w t w' := by
  unfold approval_delegations.actor at h
  split at h
  · split at h
    · cases h
      exact Does.ends _
    · cases h
      exact Does.goes _ trivial
  · cases h

theorem own_does (h : _lock_delegation_owner w t = some w') : Does w t w' := by
  unfold _lock_delegation_owner at h
  split at h
  · split_ifs at h with hcompany hopen
    · cases h
      exact Does.ends _
    · cases h
      exact Does.owns _ _ hopen (not_not.1 hcompany)
  · cases h

theorem fetch_does (hs : Sound w t (w.sessions t)) (h : fetch w t = some w') : Does w t w' := by
  unfold fetch at h
  split at h
  · rename_i actor call hsession
    rw [hsession] at hs
    split at h
    · cases h
    · rename_i expected hexpected
      split at h
      · cases h
        exact Does.ends _
      · rename_i current hcurrent
        split_ifs at h with hlocked hversion
        · cases h
          exact Does.ends _
        · cases h
          rw [Bool.not_eq_false] at hlocked
          apply Does.locks _ _ hlocked
          have howns : Owns w t actor := hs
          refine ⟨⟨howns.lock, howns.company⟩, ?_, Locks.holder_take_self _ _ _, hcurrent⟩
          rw [hexpected, not_not.1 hversion]
  · cases h

theorem validate_does (hs : Sound w t (w.sessions t)) (h : validate w t = some w') :
    Does w t w' := by
  unfold validate at h
  split at h
  · rename_i actor delegation_id payload now hsession
    rw [hsession] at hs
    cases h
    exact Does.check (fun _ => ⟨hs, rfl⟩)
  · rename_i actor delegation_id payload expectedVersion now current hsession
    rw [hsession] at hs
    cases h
    exact Does.check (fun _ => hs)
  · rename_i actor delegation_id expected_version now current hsession
    rw [hsession] at hs
    cases h
    exact Does.goes _ hs
  · cases h

theorem clear_does (hs : Sound w t (w.sessions t)) (h : clear w t = some w') : Does w t w' := by
  unfold clear at h
  split at h
  · rename_i actor call current hsession
    rw [hsession] at hs
    split at h
    · rename_i hnone
      cases h
      apply Does.goes
      refine ⟨hs.1, hs.2, ?_⟩
      intro payload hpayload
      rw [hnone] at hpayload
      cases hpayload
    · rename_i payload hsome
      split_ifs at h with henabled
      · cases h
        apply Does.check
        intro hok
        refine ⟨hs.1, hs.2, ?_⟩
        intro payload' hpayload _
        rw [hsome] at hpayload
        cases hpayload
        unfold _assert_no_delegation_overlap at hok
        split_ifs at hok with hnonempty
        exact Finset.not_nonempty_iff_eq_empty.1 hnonempty
      · cases h
        apply Does.goes
        refine ⟨hs.1, hs.2, ?_⟩
        intro payload' hpayload henabled'
        rw [hsome] at hpayload
        cases hpayload
        exact absurd henabled' henabled
  · cases h

theorem write_does (hs : Sound w t (w.sessions t)) (h : write w t = some w') : Does w t w' := by
  unfold write at h
  split at h
  · rename_i actor delegation_id payload now hsession
    rw [hsession] at hs
    split_ifs at h with hlocked htaken
    · cases h
      exact Does.ends _
    · cases h
      rw [Bool.not_eq_false] at hlocked
      apply Does.locks _ _ hlocked
      refine ⟨⟨hs.1.lock, hs.1.company⟩, hs.2.1, hs.2.2, delegation_id, payload, now, rfl, rfl,
        Locks.holder_take_self _ _ _, ?_⟩
      rw [Option.isSome_iff_ne_none, not_not] at htaken
      exact htaken
  · rename_i actor call current hsession
    rw [hsession] at hs
    cases h
    exact Does.goes _ ⟨hs.1, hs.2.1, hs.2.2, rfl⟩
  · cases h

theorem step_does {a : Action} (hs : ∀ t, Sound w t (w.sessions t)) (h : step w a = some w') :
    (∃ t, Does w t w') ∨ ∃ change directory, w.directory.apply change = some directory ∧
      w' = { w with directory := directory } := by
  cases a with
  | begin t actor_id call =>
    dsimp only [step] at h
    split at h
    · cases h
      exact Or.inl ⟨t, Does.check (fun _ => trivial)⟩
    · cases h
  | actor t => exact Or.inl ⟨t, actor_does h⟩
  | own t => exact Or.inl ⟨t, own_does h⟩
  | fetch t => exact Or.inl ⟨t, fetch_does (hs t) h⟩
  | validate t => exact Or.inl ⟨t, validate_does (hs t) h⟩
  | clear t => exact Or.inl ⟨t, clear_does (hs t) h⟩
  | write t => exact Or.inl ⟨t, write_does (hs t) h⟩
  | commit t =>
    dsimp only [step] at h
    unfold commit at h
    split at h
    · rename_i actor call current row hsession
      cases h
      exact Or.inl ⟨t, Does.commits actor call current row hsession⟩
    · cases h
  | abort t =>
    cases h
    exact Or.inl ⟨t, Does.ends none⟩
  | administer change =>
    dsimp only [step] at h
    rw [Option.map_eq_some_iff] at h
    obtain ⟨directory, happly, rfl⟩ := h
    exact Or.inr ⟨change, directory, happly, rfl⟩

/-! ## The commit -/

theorem owned_iff {row : Delegation} : row.owned actor = true ↔
    row.company_id = actor.companyId ∧ row.owner_user_id = actor.userId := by
  unfold Delegation.owned
  rw [Bool.and_eq_true, decide_eq_true_eq, decide_eq_true_eq]

theorem owned_delegation_eq {delegations : Delegations} {id : String} {row : Delegation}
    (h : owned_delegation delegations actor id = some row) :
    delegations.rows id = some row ∧ row.owned actor = true ∧ row.deleted_at = none := by
  unfold owned_delegation at h
  rw [Option.filter_eq_some_iff, Bool.and_eq_true, Option.isNone_iff_eq_none] at h
  exact h

/-- The row that a session has written: it belongs to the actor, its key is
locked, and so does the row that it replaces. -/
structure Pending (w : World) (t : Nat) (actor : AuthUserSummary) (id : String) (row : Delegation) :
    Prop where
  owned : row.owned actor = true
  lock : w.locks.holder id = some t
  before : ∀ old, w.delegations.rows id = some old → old.owned actor = true

theorem replaced_owned {current : Delegation} (h : current.owned actor = true) :
    (replaced current call).owned actor = true := by
  rw [owned_iff] at h ⊢
  cases call <;> exact h

theorem pending_of_written {row : Delegation} (h : Sound w t (.written actor call current row)) :
    Pending w t actor call.delegation_id row := by
  obtain ⟨_, hbased, _, hwrites⟩ := h
  cases current with
  | none =>
    obtain ⟨delegation_id, payload, now, rfl, rfl, hlock, hnone⟩ := hwrites
    refine ⟨owned_iff.2 ⟨rfl, rfl⟩, hlock, ?_⟩
    intro old hold
    dsimp only [Call.delegation_id] at hold
    rw [hnone] at hold
    cases hold
  | some current =>
    obtain ⟨_, hlock, hcurrent⟩ := hbased
    obtain ⟨hrow, howned, _⟩ := owned_delegation_eq hcurrent
    have hrowEq : row = replaced current call := hwrites
    refine ⟨?_, hlock, ?_⟩
    · rw [hrowEq]
      exact replaced_owned howned
    · intro old hold
      rw [hrow] at hold
      cases hold
      exact howned

/-- The statements of one session frame those of each other session. -/
theorem Does.frame (hs : Sound w t (w.sessions t)) (h : Does w t w') (hne : u ≠ t) :
    Frame u w w' := by
  cases h with
  | goes session _ =>
    exact ⟨fun _ _ hc => hc, fun _ hk => hk, fun _ hk => hk, fun _ _ => rfl, fun _ _ _ _ _ => Iff.rfl⟩
  | ends answer =>
    exact ⟨fun _ _ hc => hc, fun _ hk => Locks.holder_release.2 ⟨hk, hne⟩,
      fun _ hk => Locks.holder_release.2 ⟨hk, hne⟩, fun _ _ => rfl, fun _ _ _ _ _ => Iff.rfl⟩
  | owns actor call hopen hcompany =>
    exact ⟨fun _ _ hc => hc, fun _ hk => Locks.holder_take_of_open hopen hk hne, fun _ hk => hk, fun _ _ => rfl,
      fun _ _ _ _ _ => Iff.rfl⟩
  | locks id session hopen _ =>
    exact ⟨fun _ _ hc => hc, fun _ hk => hk, fun _ hk => Locks.holder_take_of_open hopen hk hne,
      fun _ _ => rfl, fun _ _ _ _ _ => Iff.rfl⟩
  | commits actor call current row hsession =>
    rw [hsession] at hs
    have hpending := pending_of_written hs
    constructor
    · intro _ _ hcompany
      exact hcompany
    · intro k hk
      exact Locks.holder_release.2 ⟨hk, hne⟩
    · intro k hk
      exact Locks.holder_release.2 ⟨hk, hne⟩
    · intro id hid
      apply Table.rows_set_ne
      rintro rfl
      rw [hpending.lock] at hid
      cases hid
      exact hne rfl
    · intro other id row' hother howned
      -- the two sessions have different owners
      have hdiffer : other.userId ≠ actor.userId := by
        intro heq
        rw [heq, hs.1.lock] at hother
        cases hother
        exact hne rfl
      by_cases hid : id = call.delegation_id
      · subst hid
        dsimp only
        rw [Table.rows_set_self, Option.some.injEq]
        constructor
        · rintro rfl
          exact absurd ((owned_iff.1 howned).2.symm.trans (owned_iff.1 hpending.owned).2) hdiffer
        · intro hold
          have hbefore := hpending.before row' hold
          exact absurd ((owned_iff.1 howned).2.symm.trans (owned_iff.1 hbefore).2) hdiffer
      · dsimp only
        rw [Table.rows_set_ne _ _ hid]

theorem Does.sessions (h : Does w t w') (hne : u ≠ t) : w'.sessions u = w.sessions u := by
  cases h <;> exact if_neg hne

/-- What session `t` itself relies on afterwards. -/
theorem Does.self (h : Does w t w') : Sound w' t (w'.sessions t) := by
  cases h with
  | goes session hsound =>
    dsimp only [World.put]
    rw [if_pos rfl]
    exact hsound.put t session
  | ends answer =>
    dsimp only [World.finish, World.put]
    rw [if_pos rfl]
    trivial
  | owns actor call hopen hcompany =>
    dsimp only [World.put]
    rw [if_pos rfl]
    exact ⟨Locks.holder_take_self _ _ _, hcompany⟩
  | locks id session hopen hsound =>
    dsimp only [World.put]
    rw [if_pos rfl]
    exact hsound.put t session
  | commits actor call current row hsession =>
    dsimp only [World.finish, World.put]
    rw [if_pos rfl]
    trivial

theorem sound_step {a : Action} (hs : ∀ t, Sound w t (w.sessions t)) (h : step w a = some w') :
    ∀ t, Sound w' t (w'.sessions t) := by
  intro u
  rcases step_does hs h with ⟨t, hdoes⟩ | ⟨change, directory, happly, rfl⟩
  · by_cases hu : u = t
    · subst hu
      exact hdoes.self
    · rw [hdoes.sessions hu]
      exact (hs u).frame (hdoes.frame (hs t) hu)
  · exact (hs u).frame ⟨fun _ _ hc => Directory.companyOf_apply happly hc, fun _ hk => hk,
      fun _ hk => hk, fun _ _ => rfl, fun _ _ _ _ _ => Iff.rfl⟩

theorem sound_of_reachable (h : machine.Reachable w) : ∀ t, Sound w t (w.sessions t) := by
  apply Machine.Reachable.invariant _ _ h
  · intro s hstart t
    obtain ⟨answer, hanswer⟩ := hstart.quiet t
    rw [hanswer]
    trivial
  · intro s a s' hs hstep
    exact sound_step hs hstep

/-! ## Disjoint periods -/

/-- The live delegations of one owner share no date. -/
def Apart (delegations : Delegations) : Prop :=
  ∀ id id' row row', delegations.rows id = some row → delegations.rows id' = some row' → id ≠ id' →
    row.live = true → row'.live = true → row.owner_user_id = row'.owner_user_id →
    Disjoint row.dates row'.dates

/-- Each delegation is in the company of its owner. -/
def Homed (w : World) : Prop :=
  ∀ id row, w.delegations.rows id = some row →
    w.directory.companyOf row.owner_user_id = some row.company_id

theorem homed_step {a : Action} (hs : ∀ t, Sound w t (w.sessions t)) (h : step w a = some w')
    (hhomed : Homed w) : Homed w' := by
  intro id row hrow
  rcases step_does hs h with ⟨t, hdoes⟩ | ⟨change, directory, happly, rfl⟩
  · cases hdoes with
    | goes | ends | owns | locks => exact hhomed id row hrow
    | commits actor call current new hsession =>
      dsimp only at hrow
      rw [Table.rows_set] at hrow
      by_cases hid : id = call.delegation_id
      · rw [if_pos hid] at hrow
        cases hrow
        have hsound : Sound w t (.written actor call current row) := by
          rw [← hsession]
          exact hs t
        obtain ⟨hcompany, howner⟩ := owned_iff.1 (pending_of_written hsound).owned
        rw [hcompany, howner]
        exact hsound.1.company
      · rw [if_neg hid] at hrow
        exact hhomed id row hrow
  · exact Directory.companyOf_apply happly (hhomed id row hrow)

/-- The query of `_assert_no_delegation_overlap` is right for every position
of two closed periods. -/
theorem disjoint_of_not_overlapping {delegations : Delegations} {payload : Payload}
    {exclude_id : Option String}
    (h : overlapping delegations actor payload.startDate payload.endDate exclude_id = ∅)
    {id : String} {row : Delegation} (hrow : delegations.rows id = some row)
    (howned : row.owned actor = true) (hlive : row.live = true) (hid : exclude_id ≠ some id) :
    Disjoint row.dates (Set.Icc payload.startDate payload.endDate) := by
  rw [Set.disjoint_left]
  intro date hdate hother
  obtain ⟨hstart, hend⟩ := hdate
  obtain ⟨hstart', hend'⟩ := hother
  apply Finset.notMem_empty id
  rw [← h]
  unfold overlapping
  rw [Table.mem_select]
  refine ⟨row, hrow, ?_⟩
  have hafter : ¬ row.end_date < payload.startDate := not_lt.2 (hstart'.trans hend)
  have hbefore : ¬ row.start_date > payload.endDate := not_lt.2 (hstart.trans hend')
  simp only [howned, hlive, hid, hafter, hbefore, decide_false, Bool.or_self, Bool.not_false,
    Bool.and_self, ne_eq, not_false_eq_true, decide_true]

/-- A row that is written live has the period that the session has cleared. -/
theorem written_disjoint {row : Delegation} (h : Sound w t (.written actor call current row))
    (hlive : row.live = true) {id : String} {other : Delegation}
    (hother : w.delegations.rows id = some other) (howned : other.owned actor = true)
    (hotherLive : other.live = true) (hne : id ≠ call.delegation_id) :
    Disjoint other.dates row.dates := by
  obtain ⟨_, hbased, hclear, hwrites⟩ := h
  cases current with
  | none =>
    obtain ⟨delegation_id, payload, now, rfl, rfl, _, _⟩ := hwrites
    have henabled : payload.enabled = true := by
      simpa [Delegation.live, inserted] using hlive
    apply disjoint_of_not_overlapping (hclear payload rfl henabled) hother howned hotherLive
    intro hnone
    cases hnone
  | some current =>
    have hrow : row = replaced current call := hwrites
    subst hrow
    cases call with
    | create =>
      cases hbased.1
    | delete =>
      -- a deleted row is not live
      simp [Delegation.live, replaced] at hlive
    | update delegation_id payload expectedVersion now =>
      have henabled : payload.enabled = true := by
        simp only [Delegation.live, replaced, Bool.and_eq_true] at hlive
        exact hlive.1
      apply disjoint_of_not_overlapping (hclear payload rfl henabled) hother howned hotherLive
      intro hsome
      cases hsome
      exact hne rfl

theorem apart_step {a : Action} (hs : ∀ t, Sound w t (w.sessions t)) (h : step w a = some w')
    (hhomed : Homed w) (hapart : Apart w.delegations) : Apart w'.delegations := by
  rcases step_does hs h with ⟨t, hdoes⟩ | ⟨_, directory, _, rfl⟩
  · cases hdoes with
    | goes | ends | owns | locks => exact hapart
    | commits actor call current row hsession =>
      have hsound : Sound w t (.written actor call current row) := by
        rw [← hsession]
        exact hs t
      have hrow := owned_iff.1 (pending_of_written hsound).owned
      -- the new row against each old one of the owner
      have hnew : ∀ id other, w.delegations.rows id = some other → id ≠ call.delegation_id →
          other.live = true → row.live = true → other.owner_user_id = row.owner_user_id →
          Disjoint other.dates row.dates := by
        intro id other hother hne hotherLive hlive howner
        apply written_disjoint hsound hlive hother _ hotherLive hne
        have hcompany : some other.company_id = some actor.companyId := by
          rw [← hhomed id other hother, howner, hrow.2]
          exact hsound.1.company
        exact owned_iff.2 ⟨Option.some.inj hcompany, howner.trans hrow.2⟩
      intro id id' first second hfirst hsecond hne hlive hlive' howner
      dsimp only at hfirst hsecond
      rw [Table.rows_set] at hfirst hsecond
      by_cases hid : id = call.delegation_id
      · rw [if_pos hid] at hfirst
        cases hfirst
        rw [if_neg (fun heq => hne (hid.trans heq.symm))] at hsecond
        exact (hnew id' second hsecond (fun heq => hne (hid.trans heq.symm)) hlive' hlive
          howner.symm).symm
      · rw [if_neg hid] at hfirst
        by_cases hid' : id' = call.delegation_id
        · rw [if_pos hid'] at hsecond
          cases hsecond
          exact hnew id first hfirst hid hlive hlive' howner
        · rw [if_neg hid'] at hsecond
          exact hapart id id' first second hfirst hsecond hne hlive hlive' howner
  · exact hapart

theorem apart_of_reachable (h : machine.Reachable w) : Apart w.delegations := by
  have hall : (∀ t, Sound w t (w.sessions t)) ∧ Homed w ∧ Apart w.delegations := by
    apply Machine.Reachable.invariant _ _ h
    · intro s hstart
      refine ⟨?_, ?_, ?_⟩
      · intro t
        obtain ⟨answer, hanswer⟩ := hstart.quiet t
        rw [hanswer]
        trivial
      · intro id row hrow
        rw [hstart.empty] at hrow
        cases hrow
      · intro id _ row _ hrow
        rw [hstart.empty] at hrow
        cases hrow
    · intro s a s' hs hstep
      obtain ⟨hsound, hhomed, hapart⟩ := hs
      exact ⟨sound_step hsound hstep, homed_step hsound hstep hhomed,
        apart_step hsound hstep hhomed hapart⟩
  exact hall.2.2

theorem covers_iff {row : Delegation} {date : Date} :
    row.covers date = true ↔ row.live = true ∧ date ∈ row.dates := by
  unfold Delegation.covers Delegation.dates
  rw [Bool.and_eq_true, Bool.and_eq_true, decide_eq_true_eq, decide_eq_true_eq, Set.mem_Icc,
    and_assoc]

theorem Apart.covers_unique {delegations : Delegations} (h : Apart delegations) {date : Date}
    {id id' : String} {row row' : Delegation} (hrow : delegations.rows id = some row)
    (hrow' : delegations.rows id' = some row')
    (howner : row.owner_user_id = row'.owner_user_id) (hcovers : row.covers date = true)
    (hcovers' : row'.covers date = true) : id = id' := by
  by_contra hne
  obtain ⟨hlive, hdate⟩ := covers_iff.1 hcovers
  obtain ⟨hlive', hdate'⟩ := covers_iff.1 hcovers'
  exact Set.disjoint_left.1 (h id id' row row' hrow hrow' hne hlive hlive' howner)
    hdate hdate'

/-- What a commit replaces: the row that the session has read, in the version
that the call has named. -/
theorem commit_replaces (hs : ∀ t, Sound w t (w.sessions t)) (h : commit w t = some w') :
    ∃ actor call row, w'.delegations.rows call.delegation_id = some row ∧
      w'.sessions t = .idle (some (.ok row)) ∧
      ∀ expected, call.expected = some expected →
        ∃ current, w.sessions t = .written actor call (some current) row ∧
          w.delegations.rows call.delegation_id = some current ∧ current.owned actor = true ∧
          current.deleted_at = none ∧ current.version = expected ∧ row.version = expected + 1 := by
  unfold commit at h
  split at h
  · rename_i actor call current row hsession
    have hsound : Sound w t (.written actor call current row) := by
      rw [← hsession]
      exact hs t
    cases h
    refine ⟨actor, call, row, Table.rows_set_self _ _ _, if_pos rfl, ?_⟩
    intro expected hexpected
    obtain ⟨_, hbased, _, hwrites⟩ := hsound
    cases current with
    | none =>
      have hnone : call.expected = none := hbased
      rw [hexpected] at hnone
      cases hnone
    | some current =>
      obtain ⟨hversion, _, hcurrent⟩ := hbased
      obtain ⟨hrow, howned, hdeleted⟩ := owned_delegation_eq hcurrent
      have hexpectedVersion : current.version = expected := by
        rw [hexpected] at hversion
        exact (Option.some.inj hversion).symm
      have hwritten : row = replaced current call := hwrites
      refine ⟨current, hsession, hrow, howned, hdeleted, hexpectedVersion, ?_⟩
      rw [hwritten]
      cases call with
      | create => cases hexpected
      | update =>
        cases hexpected
        rfl
      | delete =>
        cases hexpected
        rfl
  · cases h

/-- The sessions of an owner never leave two live delegations with a common
date, on each date at most one deputy decides for the owner, and each update or
deletion that succeeds has replaced the version on which it was based. -/
theorem delegations_never_overlap (w : World) (h : machine.Reachable w) :
    Apart w.delegations ∧
      (∀ date id id' row row', w.delegations.rows id = some row →
        w.delegations.rows id' = some row' → row.owner_user_id = row'.owner_user_id →
        row.covers date = true → row'.covers date = true → id = id') ∧
      ∀ t w', machine.step w (.commit t) = some w' →
        ∃ actor call row, w'.delegations.rows call.delegation_id = some row ∧
          w'.sessions t = .idle (some (.ok row)) ∧
          ∀ expected, call.expected = some expected →
            ∃ current, w.sessions t = .written actor call (some current) row ∧
              w.delegations.rows call.delegation_id = some current ∧ current.owned actor = true ∧
              current.deleted_at = none ∧ current.version = expected ∧
              row.version = expected + 1 := by
  have hapart := apart_of_reachable h
  refine ⟨hapart, ?_, ?_⟩
  · intro date id id' row row' hrow hrow' howner hcovers hcovers'
    exact hapart.covers_unique hrow hrow' howner hcovers hcovers'
  · intro t w' hstep
    exact commit_replaces (sound_of_reachable h) hstep

/-- Two members of one company, and nothing delegated yet. -/
def twoMembers : World where
  directory :=
    { users := (Table.empty.set "ana" ⟨"c", "Ana", some "sales", "staff", .active, some .active⟩).set
        "bo" ⟨"c", "Bo", some "sales", "staff", .active, some .active⟩
      roles := Table.empty.set "staff" ⟨"c", ["approval:create"], .active⟩
      departments := Table.empty.set "sales" ⟨"c", .active⟩ }
  delegations := Table.empty
  owners := Locks.free
  locks := Locks.free
  sessions := fun _ => .idle none

theorem start_twoMembers : machine.Start twoMembers where
  empty := rfl
  quiet _ := ⟨none, rfl⟩

/-- The statements of one call of Ana. -/
def callOf (t : Nat) (call : Call) : List Action :=
  [.begin t "ana" call, .actor t, .own t] ++ (if call.expected = none then [] else [.fetch t]) ++
    [.validate t, .clear t, .write t, .commit t]

/-- Ana delegates two weeks; the second begins as disabled, within the first,
and is enabled once its dates are moved. -/
def delegatedWeeks : Option World := machine.run twoMembers
  (callOf 0 (.create "first" ⟨"bo", 10, 16, "leave", true⟩ 1) ++
    callOf 1 (.create "second" ⟨"bo", 16, 22, "leave", false⟩ 2) ++
    callOf 2 (.update "second" ⟨"bo", 17, 23, "leave", true⟩ 1 3))

theorem delegated_weeks_never_overlap :
    Apart (delegatedWeeks.get (by decide +kernel)).delegations :=
  have hreach : machine.Reachable (delegatedWeeks.get (by decide +kernel)) :=
    Machine.reachable_of_run start_twoMembers (Option.some_get _).symm
  (delegations_never_overlap _ hreach).1

end moaworks.approval_delegations
