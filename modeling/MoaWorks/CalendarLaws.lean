-- The laws of the calendars over whole runs: defaults, visibility and subscriptions, the places of
-- the events, and what a list shows of the events of a colleague.
import MoaWorks.Calendars

namespace moaworks.calendars

open workspace (AuthUserSummary Status)

variable {held : Set Key} {user id calendar_id : String} {c row current : Calendar}
  {sub : Subscription} {db db' : Db} {t : Table String Calendar} {ids : List String}

/-! ## The invariant -/

/-- An owner has at most one active default calendar, and one if he has any active calendar. -/
structure Defaults (calendars : Table String Calendar) : Prop where
  one : ∀ id id' c c' user, calendars.rows id = some c → calendars.rows id' = some c' →
    owned user c = true → owned user c' = true → c.is_default = true → c'.is_default = true → id = id'
  any : ∀ id c user, calendars.rows id = some c → owned user c = true →
    ∃ id' c', calendars.rows id' = some c' ∧ owned user c' = true ∧ c'.is_default = true

/-- What an open subscription tells of its calendar, and an active one of how it became so. -/
structure Subscribed (sub : Subscription) (c : Calendar) : Prop where
  active : c.status = .active
  visible : c.visibility ≠ .private
  pending : sub.status = .pending → c.visibility = .approval_required
  origin : sub.status = .active → ∃ o, sub.origin = some o ∧
    (o.visibility = .public ∨ o.actor = c.owner_user_id)

/-- The row of a user in a company. -/
def Member (db : Db) (user_id company_id : String) : Prop :=
  ∃ row, db.users.rows user_id = some row ∧ row.company_id = company_id

/-- A subscription is its subscriber's, to a calendar of his company. -/
def Subscribes (db : Db) (sub : Subscription) : Prop :=
  Member db sub.subscriber_user_id sub.company_id ∧
    ∃ c, db.calendars.rows sub.calendar_id = some c ∧ c.company_id = sub.company_id

/-- Every row is in the company of its user. -/
structure Homed (db : Db) : Prop where
  calendars : ∀ id c, db.calendars.rows id = some c → Member db c.owner_user_id c.company_id
  events : ∀ id e, db.events.rows id = some e → Member db e.owner_user_id e.company_id
  subscriptions : ∀ id sub, db.subscriptions.rows id = some sub → Subscribes db sub

structure Inv (db : Db) : Prop where
  defaults : Defaults db.calendars
  subscribed : ∀ id sub, db.subscriptions.rows id = some sub → sub.isOpen = true →
    ∃ c, db.calendars.rows sub.calendar_id = some c ∧ Subscribed sub c
  placed : ∀ id e, db.events.rows id = some e → e.status = .active →
    ∃ c, db.calendars.rows e.calendar_id = some c ∧ owned e.owner_user_id c = true
  homed : Homed db

/-! ## What the locks are for -/

/-- The calendar belongs to the user. -/
def OwnedBy (db : Db) (user_id calendar_id : String) : Prop :=
  ∃ c, db.calendars.rows calendar_id = some c ∧ c.owner_user_id = user_id

/-- The parts of a subscription that stay. -/
structure SameParties (sub sub' : Subscription) : Prop where
  calendar : sub'.calendar_id = sub.calendar_id
  company : sub'.company_id = sub.company_id
  subscriber : sub'.subscriber_user_id = sub.subscriber_user_id

/-- While a user is locked, nobody else writes his calendars, makes subscriptions to them pending or
active, or writes his active events. A locked subscription stays as it is. -/
structure Rely (held : Set Key) (s s' : Db) : Prop where
  users : ∀ id, (s'.users.rows id).map User.company_id = (s.users.rows id).map User.company_id
  calendars : ∀ user, .user user ∈ held → ∀ id c, c.owner_user_id = user →
    (s'.calendars.rows id = some c ↔ s.calendars.rows id = some c)
  opened : ∀ user, .user user ∈ held → ∀ id sub, OwnedBy s' user sub.calendar_id →
    s'.subscriptions.rows id = some sub → sub.isOpen = true → s.subscriptions.rows id = some sub
  events : ∀ user, .user user ∈ held → ∀ id e, s'.events.rows id = some e →
    e.owner_user_id = user → e.status = .active → s.events.rows id = some e
  locked : ∀ id, .subscription id ∈ held → ∀ sub, s.subscriptions.rows id = some sub →
    s'.subscriptions.rows id = some sub
  kept : ∀ id sub, s.subscriptions.rows id = some sub →
    ∃ sub', s'.subscriptions.rows id = some sub' ∧ SameParties sub sub'

theorem Rely.ownedBy {s s' : Db} (h : Rely held s s') (huser : .user user ∈ held) :
    OwnedBy s' user id ↔ OwnedBy s user id := by
  constructor
  · rintro ⟨c, hc, howner⟩
    exact ⟨c, (h.calendars user huser id c howner).1 hc, howner⟩
  · rintro ⟨c, hc, howner⟩
    exact ⟨c, (h.calendars user huser id c howner).2 hc, howner⟩

/-- The discipline of the calendars. No commit counts on more. -/
def discipline : Discipline Db Key Unit where
  Inv := Inv
  Rely := Rely
  Good := fun _ _ _ => True
  refl := fun _ _ => ⟨fun _ => rfl, fun _ _ _ _ _ => Iff.rfl, fun _ _ _ _ _ h _ => h,
    fun _ _ _ _ h _ _ => h, fun _ _ _ h => h, fun _ sub h => ⟨sub, h, rfl, rfl, rfl⟩⟩
  trans := fun held s s' s'' h h' =>
    { users := fun id => (h'.users id).trans (h.users id)
      calendars := fun user huser id c howner =>
        (h'.calendars user huser id c howner).trans (h.calendars user huser id c howner)
      opened := fun user huser id sub howned hrow hopen =>
        h.opened user huser id sub ((h'.ownedBy huser).1 howned)
          (h'.opened user huser id sub howned hrow hopen) hopen
      events := fun user huser id e hrow howner hactive =>
        h.events user huser id e (h'.events user huser id e hrow howner hactive) howner hactive
      locked := fun id hid sub hrow => h'.locked id hid sub (h.locked id hid sub hrow)
      kept := fun id sub hrow => by
        obtain ⟨sub', hrow', hsame⟩ := h.kept id sub hrow
        obtain ⟨sub'', hrow'', hsame'⟩ := h'.kept id sub' hrow'
        exact ⟨sub'', hrow'', hsame'.calendar.trans hsame.calendar,
          hsame'.company.trans hsame.company, hsame'.subscriber.trans hsame.subscriber⟩ }
  anti := fun held more s s' hsub h =>
    { users := h.users
      calendars := fun user huser => h.calendars user (hsub huser)
      opened := fun user huser => h.opened user (hsub huser)
      events := fun user huser => h.events user (hsub huser)
      locked := fun id hid => h.locked id (hsub hid)
      kept := h.kept }

/-- A change that keeps to the locks: calendars, open subscriptions and active events change only
under the lock of the owner, and subscriptions under their own. -/
structure Guarded (held : Set Key) (s s' : Db) : Prop where
  users : ∀ id, (s'.users.rows id).map User.company_id = (s.users.rows id).map User.company_id
  calendars : ∀ id, s'.calendars.rows id ≠ s.calendars.rows id →
    (∀ c, s.calendars.rows id = some c → .user c.owner_user_id ∈ held) ∧
      ∀ c, s'.calendars.rows id = some c → .user c.owner_user_id ∈ held
  subscriptions : ∀ id, s'.subscriptions.rows id ≠ s.subscriptions.rows id →
    (∀ sub, s.subscriptions.rows id = some sub → .subscription id ∈ held ∧
      ∃ sub', s'.subscriptions.rows id = some sub' ∧ SameParties sub sub') ∧
    ∀ sub', s'.subscriptions.rows id = some sub' → sub'.isOpen = true →
      ∃ c, s.calendars.rows sub'.calendar_id = some c ∧ .user c.owner_user_id ∈ held
  events : ∀ id e, s'.events.rows id = some e → e.status = .active → s.events.rows id ≠ some e →
    .user e.owner_user_id ∈ held

theorem Guarded.rely {others : Set Key} {s s' : Db} (h : Guarded held s s')
    (hdisjoint : Disjoint held others) : Rely others s s' := by
  have hnot : ∀ {k}, k ∈ held → k ∉ others := fun hk => Set.disjoint_left.1 hdisjoint hk
  have hcalendars : ∀ user, Key.user user ∈ others → ∀ id c, c.owner_user_id = user →
      (s'.calendars.rows id = some c ↔ s.calendars.rows id = some c) := by
    rintro user huser id c rfl
    by_cases hsame : s'.calendars.rows id = s.calendars.rows id
    · rw [hsame]
    · obtain ⟨hold, hnew⟩ := h.calendars id hsame
      exact ⟨fun hc => absurd huser (hnot (hnew c hc)), fun hc => absurd huser (hnot (hold c hc))⟩
  refine ⟨h.users, hcalendars, ?_, ?_, ?_, ?_⟩
  · rintro user huser id sub ⟨c, hc, howner⟩ hrow hopen
    by_contra hne
    obtain ⟨c', hc', hkey⟩ := (h.subscriptions id (fun hsame => hne (hsame ▸ hrow))).2 sub hrow hopen
    rw [(hcalendars user huser _ c howner).1 hc] at hc'
    cases hc'
    exact hnot hkey (howner ▸ huser)
  · intro user huser id e hrow howner hactive
    by_contra hne
    exact hnot (h.events id e hrow hactive hne) (howner ▸ huser)
  · intro id hid sub hrow
    by_contra hne
    have hchanged : s'.subscriptions.rows id ≠ s.subscriptions.rows id := fun hsame =>
      hne (hsame.trans hrow)
    exact hnot ((h.subscriptions id hchanged).1 sub hrow).1 hid
  · intro id sub hrow
    by_cases hsame : s'.subscriptions.rows id = s.subscriptions.rows id
    · exact ⟨sub, hsame.trans hrow, rfl, rfl, rfl⟩
    · exact ((h.subscriptions id hsame).1 sub hrow).2

/-- What a transaction has to show of its commit. -/
theorem commits_of {s : Db} {write : Db → Option Db}
    (h : ∀ s', Rely held s s' → Inv s' → ∀ s'', write s' = some s'' →
      Inv s'' ∧ Guarded held s' s'') : discipline.Commits ⟨(), write⟩ held s := by
  intro s' hrely hinv s'' others hdisjoint _ hwrite
  obtain ⟨hinv', hguarded⟩ := h s' hrely hinv s'' hwrite
  exact ⟨hinv', hguarded.rely hdisjoint⟩

/-! ## Writes that leave the rows where they are -/

/-- Each row of the one table is a row of the other, with the same of some columns. -/
structure Alike {ρ : Type} (R : ρ → ρ → Prop) (t t' : Table String ρ) : Prop where
  old : ∀ id r, t.rows id = some r → ∃ r', t'.rows id = some r' ∧ R r r'
  new : ∀ id r', t'.rows id = some r' → ∃ r, t.rows id = some r ∧ R r r'

theorem alike_refl {ρ : Type} {R : ρ → ρ → Prop} (hR : ∀ r, R r r) (t : Table String ρ) :
    Alike R t t :=
  ⟨fun _ r h => ⟨r, h, hR r⟩, fun _ r h => ⟨r, h, hR r⟩⟩

theorem Alike.trans {ρ : Type} {R : ρ → ρ → Prop} {t t' t'' : Table String ρ}
    (hR : ∀ r r' r'', R r r' → R r' r'' → R r r'') (h : Alike R t t') (h' : Alike R t' t'') :
    Alike R t t'' where
  old := fun id r hr => by
    obtain ⟨r', hr', hs⟩ := h.old id r hr
    obtain ⟨r'', hr'', hs'⟩ := h'.old id r' hr'
    exact ⟨r'', hr'', hR _ _ _ hs hs'⟩
  new := fun id r'' hr'' => by
    obtain ⟨r', hr', hs'⟩ := h'.new id r'' hr''
    obtain ⟨r, hr, hs⟩ := h.new id r' hr'
    exact ⟨r, hr, hR _ _ _ hs hs'⟩

theorem alike_update {ρ : Type} {R : ρ → ρ → Prop} (hR : ∀ r, R r r) (t : Table String ρ)
    (p : String → ρ → Bool) {f : ρ → ρ} (hf : ∀ r, R r (f r)) : Alike R t (t.update p f) where
  old := fun id r hr => by
    refine ⟨if p id r then f r else r, by rw [Table.rows_update, hr, Option.map_some], ?_⟩
    split_ifs
    · exact hf r
    · exact hR r
  new := fun id r' hr' => by
    rw [Table.rows_update] at hr'
    obtain ⟨r, hr, rfl⟩ := Option.map_eq_some_iff.1 hr'
    refine ⟨r, hr, ?_⟩
    split_ifs
    · exact hf r
    · exact hR r

/-- The columns of a calendar that its owner cannot change while it is active. -/
structure SamePlace (c c' : Calendar) : Prop where
  owner : c'.owner_user_id = c.owner_user_id
  company : c'.company_id = c.company_id
  status : c'.status = c.status

theorem SamePlace.refl (c : Calendar) : SamePlace c c := ⟨rfl, rfl, rfl⟩

theorem SamePlace.owned {c' : Calendar} (h : SamePlace c c') (user : String) :
    owned user c' = owned user c := by
  simp only [calendars.owned, h.owner, h.status]

theorem SamePlace.trans (c c' c'' : Calendar) (h : SamePlace c c') (h' : SamePlace c' c'') :
    SamePlace c c'' :=
  ⟨h'.owner.trans h.owner, h'.company.trans h.company, h'.status.trans h.status⟩

/-- The columns of a calendar that the subscriptions depend on. -/
structure SameCalendar (c c' : Calendar) : Prop extends SamePlace c c' where
  visibility : c'.visibility = c.visibility

theorem SameCalendar.refl (c : Calendar) : SameCalendar c c := ⟨SamePlace.refl c, rfl⟩

theorem SameCalendar.trans (c c' c'' : Calendar) (h : SameCalendar c c') (h' : SameCalendar c' c'') :
    SameCalendar c c'' :=
  ⟨h.toSamePlace.trans _ _ _ h'.toSamePlace, h'.visibility.trans h.visibility⟩

theorem Subscribed.same {c' : Calendar} (h : Subscribed sub c) (hc : SameCalendar c c') :
    Subscribed sub c' where
  active := hc.status.trans h.active
  visible := hc.visibility ▸ h.visible
  pending := fun hp => hc.visibility.trans (h.pending hp)
  origin := fun ha => by
    rw [hc.owner]
    exact h.origin ha

theorem SameParties.refl (sub : Subscription) : SameParties sub sub := ⟨rfl, rfl, rfl⟩

/-- An event stays its owner's. -/
structure SameOwner (e e' : ScheduleEvent) : Prop where
  owner : e'.owner_user_id = e.owner_user_id
  company : e'.company_id = e.company_id

theorem SameOwner.refl (e : ScheduleEvent) : SameOwner e e := ⟨rfl, rfl⟩

theorem Member.same {user_id company_id : String} (h : Member db user_id company_id)
    (husers : (db'.users.rows user_id).map User.company_id =
      (db.users.rows user_id).map User.company_id) : Member db' user_id company_id := by
  obtain ⟨row, hrow, hcompany⟩ := h
  rw [hrow] at husers
  obtain ⟨row', hrow', hcompany'⟩ := Option.map_eq_some_iff.1 husers
  exact ⟨row', hrow', hcompany'.trans hcompany⟩

theorem Member.unique {user_id company_id company_id' : String} (h : Member db user_id company_id)
    (h' : Member db user_id company_id') : company_id = company_id' := by
  obtain ⟨row, hrow, rfl⟩ := h
  obtain ⟨row', hrow', rfl⟩ := h'
  rw [hrow] at hrow'
  cases hrow'
  rfl

theorem Homed.rewrite (h : Homed db) (husers : ∀ id, (db'.users.rows id).map User.company_id =
      (db.users.rows id).map User.company_id)
    (hcalendars : Alike (fun c c' => c'.owner_user_id = c.owner_user_id ∧
      c'.company_id = c.company_id) db.calendars db'.calendars)
    (hsubs : Alike SameParties db.subscriptions db'.subscriptions)
    (hevents : Alike SameOwner db.events db'.events) : Homed db' where
  calendars := fun id c' hc' => by
    obtain ⟨c, hc, howner, hcompany⟩ := hcalendars.new id c' hc'
    rw [howner, hcompany]
    exact (h.calendars id c hc).same (husers _)
  events := fun id e' he' => by
    obtain ⟨e, he, hsame⟩ := hevents.new id e' he'
    rw [hsame.owner, hsame.company]
    exact (h.events id e he).same (husers _)
  subscriptions := fun id sub' hsub' => by
    obtain ⟨sub, hsub, hsame⟩ := hsubs.new id sub' hsub'
    obtain ⟨hmember, c, hc, hcompany⟩ := h.subscriptions id sub hsub
    obtain ⟨c', hc', -, hcompany'⟩ := hcalendars.old _ c hc
    refine ⟨?_, c', ?_, ?_⟩
    · rw [hsame.subscriber, hsame.company]
      exact hmember.same (husers _)
    · rw [hsame.calendar]
      exact hc'
    · rw [hsame.company, hcompany', hcompany]

theorem Alike.place {t' : Table String Calendar} {R : Calendar → Calendar → Prop}
    (hR : ∀ c c', R c c' → SamePlace c c') (h : Alike R t t') :
    Alike (fun c c' => c'.owner_user_id = c.owner_user_id ∧ c'.company_id = c.company_id) t t' where
  old := fun id c hc => by
    obtain ⟨c', hc', hs⟩ := h.old id c hc
    exact ⟨c', hc', (hR _ _ hs).owner, (hR _ _ hs).company⟩
  new := fun id c' hc' => by
    obtain ⟨c, hc, hs⟩ := h.new id c' hc'
    exact ⟨c, hc, (hR _ _ hs).owner, (hR _ _ hs).company⟩

/-- The active events stay in calendars of their owner. -/
theorem Inv.placed_of (h : Inv db) (ha : Alike SamePlace db.calendars t) {e : ScheduleEvent}
    (he : db.events.rows id = some e) (hactive : e.status = .active) :
    ∃ c, t.rows e.calendar_id = some c ∧ owned e.owner_user_id c = true := by
  obtain ⟨c, hc, howned⟩ := h.placed id e he hactive
  obtain ⟨c', hc', hsame⟩ := ha.old _ c hc
  exact ⟨c', hc', (hsame.owned _).trans howned⟩

theorem Inv.alike (h : Inv db) (ha : Alike SameCalendar db.calendars t) (hd : Defaults t) :
    Inv { db with calendars := t } where
  defaults := hd
  subscribed := fun id sub hsub hopen => by
    obtain ⟨c, hc, hs⟩ := h.subscribed id sub hsub hopen
    obtain ⟨c', hc', hsame⟩ := ha.old _ c hc
    exact ⟨c', hc', hs.same hsame⟩
  placed := fun id e he hactive => by
    obtain ⟨c, hc, howned⟩ := h.placed id e he hactive
    obtain ⟨c', hc', hsame⟩ := ha.old _ c hc
    exact ⟨c', hc', (hsame.owned _).trans howned⟩
  homed := h.homed.rewrite (fun _ => rfl) (ha.place (fun _ _ hs => hs.toSamePlace))
    (alike_refl SameParties.refl _) (alike_refl SameOwner.refl _)

/-- A change of calendars under the lock of their owner. -/
theorem guarded_calendars (h : ∀ id, t.rows id ≠ db.calendars.rows id →
      (∀ c, db.calendars.rows id = some c → Key.user c.owner_user_id ∈ held) ∧
        ∀ c, t.rows id = some c → Key.user c.owner_user_id ∈ held) :
    Guarded held db { db with calendars := t } where
  users := fun _ => rfl
  calendars := h
  subscriptions := fun _ hne => (hne rfl).elim
  events := fun _ _ he _ hne => (hne he).elim

theorem guarded_refl (held : Set Key) (db : Db) : Guarded held db db :=
  guarded_calendars (fun _ hne => (hne rfl).elim)

/-- An update of calendars whose owner is locked. -/
theorem guarded_update {p : String → Calendar → Bool} {f : Calendar → Calendar}
    (hf : ∀ c, (f c).owner_user_id = c.owner_user_id)
    (hp : ∀ id c, db.calendars.rows id = some c → p id c = true → Key.user c.owner_user_id ∈ held) :
    Guarded held db (db.updateCalendars p f) := by
  refine guarded_calendars fun id hne => ?_
  rw [Table.rows_update] at hne
  cases hrow : db.calendars.rows id with
  | none =>
    rw [hrow] at hne
    exact (hne rfl).elim
  | some c =>
    rw [hrow, Option.map_some] at hne
    have hpc : p id c = true := by
      by_contra hpc
      exact hne (by rw [if_neg hpc])
    refine ⟨fun c' hc' => ?_, fun c' hc' => ?_⟩
    · cases hc'
      exact hp id c hrow hpc
    · rw [Table.rows_update, hrow, Option.map_some, if_pos hpc] at hc'
      cases hc'
      rw [hf]
      exact hp id c hrow hpc

/-! ## Default calendars -/

theorem owned_iff : owned user c = true ↔ c.owner_user_id = user ∧ c.status = .active := by
  simp only [owned, Bool.and_eq_true, decide_eq_true_eq]

theorem insertCalendar_ok (h : db.insertCalendar id row = some db') :
    db.calendars.rows id = none ∧ (∀ k c, db.calendars.rows k = some c →
      owned row.owner_user_id c = true → c.is_default = true → row.is_default = false) ∧
      db' = { db with calendars := db.calendars.set id row } := by
  unfold Db.insertCalendar at h
  split_ifs at h with hfree
  obtain ⟨hnone, hclash⟩ := hfree
  refine ⟨hnone, fun k c hc howned hdefault => ?_, (Option.some.inj h).symm⟩
  by_contra hrow
  have hk : k ≠ id := by
    rintro rfl
    rw [hnone] at hc
    cases hc
  have hmem : k ∈ db.calendars.select (clash id row) := by
    rw [Table.mem_select]
    refine ⟨c, hc, ?_⟩
    simp [clash, howned, hdefault, hk, Bool.not_eq_false _ ▸ hrow]
  rw [hclash] at hmem
  exact absurd hmem (Finset.notMem_empty k)

theorem Defaults.set (h : Defaults t) (hnone : t.rows id = none)
    (hclash : ∀ k c, t.rows k = some c → owned row.owner_user_id c = true → c.is_default = true →
      row.is_default = false) (hdefault : row.is_default = true ∨ ∃ k c, t.rows k = some c ∧
      owned row.owner_user_id c = true ∧ c.is_default = true) : Defaults (t.set id row) := by
  have hkeep : ∀ k c, t.rows k = some c → (t.set id row).rows k = some c := by
    intro k c hc
    rw [Table.rows_set_ne]
    · exact hc
    · rintro rfl
      rw [hnone] at hc
      cases hc
  have hcases : ∀ k c, (t.set id row).rows k = some c → (k = id ∧ c = row) ∨ t.rows k = some c := by
    intro k c hc
    rw [Table.rows_set] at hc
    split_ifs at hc with hk
    · exact .inl ⟨hk, (Option.some.inj hc).symm⟩
    · exact .inr hc
  refine ⟨?_, ?_⟩
  · intro k k' c c' user hc hc' howned howned' hdef hdef'
    rcases hcases k c hc with ⟨hk, hrow⟩ | hold
    · subst hk hrow
      rcases hcases k' c' hc' with ⟨hk', -⟩ | hc'
      · exact hk'.symm
      · rw [hclash k' c' hc' ((owned_iff.1 howned).1 ▸ howned') hdef'] at hdef
        cases hdef
    · rcases hcases k' c' hc' with ⟨-, hrow'⟩ | hold'
      · rw [hrow'] at howned' hdef'
        rw [hclash k c hold ((owned_iff.1 howned').1 ▸ howned) hdef] at hdef'
        cases hdef'
      · exact h.one k k' c c' user hold hold' howned howned' hdef hdef'
  · intro k c user hc howned
    rcases hcases k c hc with ⟨hk, hrow⟩ | hc
    · subst hk hrow
      rcases hdefault with hdef | ⟨k', c', hc', howned', hdef'⟩
      · exact ⟨k, c, Table.rows_set_self .., howned, hdef⟩
      · exact ⟨k', c', hkeep k' c' hc', (owned_iff.1 howned).1 ▸ howned', hdef'⟩
    · obtain ⟨k', c', hc', howned', hdef'⟩ := h.any k c user hc howned
      exact ⟨k', c', hkeep k' c' hc', howned', hdef'⟩

/-- Only the calendars of one user have changed, and he has one default. -/
theorem Defaults.of_owner {t' : Table String Calendar} (h : Defaults t) (user : String)
    (hothers : ∀ u, u ≠ user → ∀ k c, owned u c = true → (t'.rows k = some c ↔ t.rows k = some c))
    {d : String} {cd : Calendar} (hd : t'.rows d = some cd) (howned : owned user cd = true)
    (hdefault : cd.is_default = true)
    (hone : ∀ k c, t'.rows k = some c → owned user c = true → c.is_default = true → k = d) :
    Defaults t' where
  one := fun k k' c c' u hc hc' hu hu' hdef hdef' => by
    by_cases hne : u = user
    · subst hne
      rw [hone k c hc hu hdef, hone k' c' hc' hu' hdef']
    · exact h.one k k' c c' u ((hothers u hne k c hu).1 hc) ((hothers u hne k' c' hu').1 hc')
        hu hu' hdef hdef'
  any := fun k c u hc hu => by
    by_cases hne : u = user
    · subst hne
      exact ⟨d, cd, hd, howned, hdefault⟩
    · obtain ⟨k', c', hc', hu', hdef'⟩ := h.any k c u ((hothers u hne k c hu).1 hc) hu
      exact ⟨k', c', (hothers u hne k' c' hu').2 hc', hu', hdef'⟩

theorem others_update {p : String → Calendar → Bool} {f : Calendar → Calendar}
    (hf : ∀ c, (f c).owner_user_id = c.owner_user_id)
    (hp : ∀ k c, t.rows k = some c → p k c = true → c.owner_user_id = user) :
    ∀ u, u ≠ user → ∀ k c, owned u c = true →
      ((t.update p f).rows k = some c ↔ t.rows k = some c) := by
  intro u hne k c howned
  rw [Table.rows_update]
  cases hrow : t.rows k with
  | none => simp
  | some r =>
    rw [Option.map_some]
    split_ifs with hpr
    · have howner := hp k r hrow hpr
      constructor
      · intro hc
        cases hc
        exact absurd ((owned_iff.1 howned).1.symm.trans ((hf r).trans howner)) hne
      · intro hc
        cases hc
        exact absurd ((owned_iff.1 howned).1.symm.trans howner) hne
    · exact Iff.rfl

/-- A new calendar: a default one, or one beside the default of its owner. -/
theorem Inv.insertCalendar (h : Inv db) (hwrite : db.insertCalendar id row = some db')
    (hmember : Member db row.owner_user_id row.company_id)
    (hdefault : row.is_default = true ∨ ∃ k c, db.calendars.rows k = some c ∧
      owned row.owner_user_id c = true ∧ c.is_default = true) : Inv db' := by
  obtain ⟨hnone, hclash, rfl⟩ := insertCalendar_ok hwrite
  have hold : ∀ k c, db.calendars.rows k = some c →
      (db.calendars.set id row).rows k = some c := by
    intro k c hc
    rw [Table.rows_set_ne]
    · exact hc
    · rintro rfl
      rw [hnone] at hc
      cases hc
  refine ⟨h.defaults.set hnone hclash hdefault, ?_, ?_, ?_, h.homed.events, ?_⟩
  · intro k sub hsub hopen
    obtain ⟨c, hc, hs⟩ := h.subscribed k sub hsub hopen
    exact ⟨c, hold _ c hc, hs⟩
  · intro k e he hactive
    obtain ⟨c, hc, howned⟩ := h.placed k e he hactive
    exact ⟨c, hold _ c hc, howned⟩
  · intro k c hc
    rw [Table.rows_set] at hc
    split_ifs at hc
    · cases hc
      exact hmember
    · exact h.homed.calendars k c hc
  · intro k sub hsub
    obtain ⟨hsubscriber, c, hc, hcompany⟩ := h.homed.subscriptions k sub hsub
    exact ⟨hsubscriber, c, hold _ c hc, hcompany⟩

theorem guarded_insertCalendar (hwrite : db.insertCalendar id row = some db')
    (hkey : .user row.owner_user_id ∈ held) : Guarded held db db' := by
  obtain ⟨hnone, -, rfl⟩ := insertCalendar_ok hwrite
  refine guarded_calendars fun k hne => ?_
  rw [Table.rows_set] at hne ⊢
  split_ifs at hne ⊢ with hk
  · subst hk
    refine ⟨fun c hc => ?_, fun c hc => ?_⟩
    · rw [hnone] at hc
      cases hc
    · cases hc
      exact hkey
  · exact (hne rfl).elim

/-! ## The writes of the calendars -/

/-- The default calendar of a user without one. -/
theorem Defaults.madeDefault (h : Defaults t) (hc : t.rows id = some c)
    (howned : owned user c = true)
    (hnone : ∀ k c, t.rows k = some c → owned user c = true → c.is_default = false) :
    Defaults (t.update (fun k _ => decide (k = id)) madeDefault) := by
  have howner : ∀ k r, t.rows k = some r → decide (k = id) = true → r.owner_user_id = user := by
    intro k r hr hk
    rw [of_decide_eq_true hk, hc] at hr
    cases hr
    exact (owned_iff.1 howned).1
  have hmade : (t.update (fun k _ => decide (k = id)) calendars.madeDefault).rows id =
      some (calendars.madeDefault c) := by
    rw [Table.rows_update, hc, Option.map_some, if_pos (decide_eq_true rfl)]
  refine h.of_owner user (others_update (fun _ => rfl) howner) hmade howned rfl ?_
  · intro k c' hc' howned' hdefault
    by_contra hne
    rw [Table.rows_update] at hc'
    obtain ⟨r, hr, rfl⟩ := Option.map_eq_some_iff.1 hc'
    rw [if_neg (by simpa using hne)] at howned' hdefault
    rw [hnone k r hr howned'] at hdefault
    cases hdefault

theorem Inv.madeDefault (h : Inv db) (hc : db.calendars.rows id = some c)
    (howned : owned user c = true)
    (hnone : ∀ k c, db.calendars.rows k = some c → owned user c = true → c.is_default = false) :
    Inv (db.updateCalendars (fun k _ => decide (k = id)) madeDefault) :=
  h.alike (alike_update SameCalendar.refl _ _ (fun _ => ⟨⟨rfl, rfl, rfl⟩, rfl⟩))
    (h.defaults.madeDefault hc howned hnone)

/-- `SET is_default=FALSE`, of the first UPDATE. -/
def unmarked (c : Calendar) : Calendar := { c with is_default := false, version := c.version + 1 }

/-- The calendars after both UPDATEs. -/
def rewritten (calendar_id : String) (payload : CalendarUpdatePayload)
    (p : String → Calendar → Bool) (t : Table String Calendar) : Table String Calendar :=
  (t.update p unmarked).update (fun k _ => decide (k = calendar_id)) (updatedCalendar payload)

theorem alike_rewritten (calendar_id : String) (payload : CalendarUpdatePayload)
    (p : String → Calendar → Bool) (t : Table String Calendar) :
    Alike SamePlace t (rewritten calendar_id payload p t) :=
  Alike.trans SamePlace.trans
    (alike_update SamePlace.refl t p (f := unmarked) (fun _ => ⟨rfl, rfl, rfl⟩))
    (alike_update SamePlace.refl _ _ (f := updatedCalendar payload) (fun _ => ⟨rfl, rfl, rfl⟩))

theorem writeCalendar_ok {payload : CalendarUpdatePayload}
    (h : writeCalendar calendar_id payload current db = some db') :
    ∃ p : String → Calendar → Bool,
      (∀ k c, p k c = true → owned current.owner_user_id c = true ∧ c.is_default = true ∧
        payload.isDefault = some true ∧ current.is_default = false) ∧
      (db.calendars.update p unmarked).select (clash calendar_id (updatedCalendar payload current)) =
        ∅ ∧
      db' = { db with calendars := rewritten calendar_id payload p db.calendars } := by
  unfold writeCalendar at h
  by_cases hmark : payload.isDefault = some true ∧ current.is_default = false
  · simp only [if_pos hmark] at h
    split_ifs at h with hclash
    refine ⟨fun _ c => owned current.owner_user_id c && c.is_default, ?_, hclash,
      (Option.some.inj h).symm⟩
    intro k c hp
    rw [Bool.and_eq_true] at hp
    exact ⟨hp.1, hp.2, hmark⟩
  · simp only [if_neg hmark] at h
    split_ifs at h with hclash
    have hsame : db.calendars.update (fun _ _ => false) unmarked = db.calendars := by
      refine Table.ext_rows fun k => ?_
      simp
    refine ⟨fun _ _ => false, nofun, ?_, ?_⟩
    · rw [hsame]
      exact hclash
    · rw [rewritten, hsame]
      exact (Option.some.inj h).symm

/-- What an owner's update leaves of the calendars. -/
structure Updated (calendar_id : String) (updated : Calendar) (db db' : Db) : Prop where
  row : db'.calendars.rows calendar_id = some updated
  rest : ∀ k c, k ≠ calendar_id → db.calendars.rows k = some c →
    ∃ c', db'.calendars.rows k = some c' ∧ SameCalendar c c'
  place : Alike SamePlace db.calendars db'.calendars
  defaults : Defaults db'.calendars
  users : db'.users = db.users
  subscriptions : db'.subscriptions = db.subscriptions
  events : db'.events = db.events

theorem Inv.writeCalendar (h : Inv db) {payload : CalendarUpdatePayload}
    (hrow : db.calendars.rows calendar_id = some current) (howned : owned user current = true)
    (hdefault : ¬(payload.isDefault = some false ∧ current.is_default = true))
    (hwrite : writeCalendar calendar_id payload current db = some db') :
    Updated calendar_id (updatedCalendar payload current) db db' := by
  obtain ⟨p, hp, hclash, rfl⟩ := writeCalendar_ok hwrite
  have howner : current.owner_user_id = user := (owned_iff.1 howned).1
  have hfirst : (db.calendars.update p unmarked).rows calendar_id = some current := by
    rw [Table.rows_update, hrow, Option.map_some, if_neg]
    intro hpc
    obtain ⟨-, hmarked, -, hunmarked⟩ := hp _ _ hpc
    rw [hmarked] at hunmarked
    cases hunmarked
  have hlast : (rewritten calendar_id payload p db.calendars).rows calendar_id =
      some (updatedCalendar payload current) := by
    rw [rewritten, Table.rows_update, hfirst, Option.map_some, if_pos (decide_eq_true rfl)]
  have hne : ∀ k, k ≠ calendar_id → (rewritten calendar_id payload p db.calendars).rows k =
      (db.calendars.update p unmarked).rows k := by
    intro k hk
    rw [rewritten, Table.rows_update]
    cases (db.calendars.update p unmarked).rows k with
    | none => rfl
    | some c => rw [Option.map_some, if_neg (by simpa using hk)]
  have hmarks : Alike SameCalendar db.calendars (db.calendars.update p unmarked) :=
    alike_update SameCalendar.refl _ _ (fun _ => ⟨⟨rfl, rfl, rfl⟩, rfl⟩)
  refine ⟨hlast, ?_, alike_rewritten .., ?_, rfl, rfl, rfl⟩
  · intro k c hk hc
    obtain ⟨c', hc', hsame⟩ := hmarks.old k c hc
    exact ⟨c', (hne k hk).trans hc', hsame⟩
  · have hothers : ∀ u, u ≠ user → ∀ k c, owned u c = true →
        ((rewritten calendar_id payload p db.calendars).rows k = some c ↔
          db.calendars.rows k = some c) := by
      intro u hu k c hc
      refine (others_update (f := updatedCalendar payload) (fun _ => rfl) ?_ u hu k c hc).trans
        (others_update (f := unmarked) (fun _ => rfl) ?_ u hu k c hc)
      · intro k r hr hk
        rw [of_decide_eq_true hk, hfirst] at hr
        cases hr
        exact howner
      · intro k r _ hpr
        exact (owned_iff.1 (hp k r hpr).1).1.trans howner
    by_cases hmark : (updatedCalendar payload current).is_default = true
    · refine h.defaults.of_owner user hothers hlast howned hmark ?_
      intro k c hc hc' hdef
      by_contra hk
      have hmem : k ∈ (db.calendars.update p unmarked).select
          (clash calendar_id (updatedCalendar payload current)) := by
        rw [Table.mem_select]
        refine ⟨c, (hne k hk).symm.trans hc, ?_⟩
        have howned' : owned (updatedCalendar payload current).owner_user_id c = true :=
          howner.symm ▸ hc'
        simp [clash, hk, howned', hdef, hmark]
      rw [hclash] at hmem
      exact absurd hmem (Finset.notMem_empty k)
    · -- the calendar was no default before either, and no mark has gone
      have hcurrent : current.is_default = false ∧ payload.isDefault ≠ some true := by
        simp only [updatedCalendar] at hmark
        cases hcase : payload.isDefault with
        | none => simpa [hcase] using hmark
        | some b => cases b <;> simp_all
      have hkept : ∀ k, (db.calendars.update p unmarked).rows k = db.calendars.rows k := by
        intro k
        rw [Table.rows_update]
        cases hk : db.calendars.rows k with
        | none => rfl
        | some c =>
          rw [Option.map_some, if_neg]
          intro hpc
          exact hcurrent.2 (hp k c hpc).2.2.1
      obtain ⟨d, cd, hd, hdowned, hddef⟩ := h.defaults.any _ _ _ hrow howned
      have hd' : d ≠ calendar_id := by
        rintro rfl
        rw [hrow] at hd
        cases hd
        rw [hcurrent.1] at hddef
        cases hddef
      refine h.defaults.of_owner user hothers (((hne d hd').trans (hkept d)).trans hd) hdowned hddef ?_
      intro k c hc hc' hdef
      by_cases hk : k = calendar_id
      · subst hk
        rw [hlast] at hc
        cases hc
        exact absurd hdef hmark
      · rw [hne k hk, hkept] at hc
        exact h.defaults.one k d c cd user hc hd hc' hdowned hdef hddef

theorem guarded_writeCalendar {payload : CalendarUpdatePayload}
    (hrow : db.calendars.rows calendar_id = some current) (howner : current.owner_user_id = user)
    (hkey : .user user ∈ held) (hwrite : writeCalendar calendar_id payload current db = some db') :
    Guarded held db db' := by
  obtain ⟨p, hp, -, rfl⟩ := writeCalendar_ok hwrite
  refine guarded_calendars fun k hne => ?_
  have hold : ∀ c, db.calendars.rows k = some c → c.owner_user_id = user := by
    intro c hc
    by_contra hother
    refine hne ?_
    rw [rewritten, Table.rows_update, Table.rows_update, hc, Option.map_some, if_neg,
      Option.map_some, if_neg]
    · intro hk
      rw [of_decide_eq_true hk, hrow] at hc
      cases hc
      exact hother howner
    · intro hpc
      exact hother ((owned_iff.1 (hp k c hpc).1).1.trans howner)
  refine ⟨fun c hc => (hold c hc).symm ▸ hkey, fun c' hc' => ?_⟩
  obtain ⟨c, hc, hsame⟩ := (alike_rewritten calendar_id payload p db.calendars).new k c' hc'
  rw [hsame.owner, hold c hc]
  exact hkey

/-- The same calendar, with its mark. -/
structure SameDefault (c c' : Calendar) : Prop extends SameCalendar c c' where
  is_default : c'.is_default = c.is_default

theorem SameDefault.refl (c : Calendar) : SameDefault c c := ⟨SameCalendar.refl c, rfl⟩

theorem SameDefault.trans (c c' c'' : Calendar) (h : SameDefault c c') (h' : SameDefault c' c'') :
    SameDefault c c'' :=
  ⟨h.toSameCalendar.trans _ _ _ h'.toSameCalendar, h'.is_default.trans h.is_default⟩

theorem Defaults.alike {t' : Table String Calendar} (h : Defaults t) (ha : Alike SameDefault t t') :
    Defaults t' where
  one := fun k k' c c' user hc hc' howned howned' hdef hdef' => by
    obtain ⟨r, hr, hs⟩ := ha.new k c hc
    obtain ⟨r', hr', hs'⟩ := ha.new k' c' hc'
    exact h.one k k' r r' user hr hr' (hs.owned user ▸ howned) (hs'.owned user ▸ howned')
      (hs.is_default ▸ hdef) (hs'.is_default ▸ hdef')
  any := fun k c user hc howned => by
    obtain ⟨r, hr, hs⟩ := ha.new k c hc
    obtain ⟨k', r', hr', howned', hdef'⟩ := h.any k r user hr (hs.owned user ▸ howned)
    obtain ⟨c', hc', hs'⟩ := ha.old k' r' hr'
    exact ⟨k', c', hc', (hs'.owned user).trans howned', hs'.is_default.trans hdef'⟩

/-- The UPDATE of one place in the order. -/
def moved (t : Table String Calendar) (entry : String × Nat) : Table String Calendar :=
  t.update (fun k _ => decide (k = entry.1))
    (fun c => { c with sort_order := entry.2, version := c.version + 1 })

theorem alike_moves (l : List (String × Nat)) (t : Table String Calendar) :
    Alike SameDefault t (l.foldl moved t) := by
  induction l generalizing t with
  | nil => exact alike_refl SameDefault.refl t
  | cons entry l ih =>
    refine Alike.trans SameDefault.trans (alike_update SameDefault.refl t _ fun c => ?_)
      (ih (moved t entry))
    exact ⟨⟨⟨rfl, rfl, rfl⟩, rfl⟩, rfl⟩

theorem moves_of_notMem {l : List (String × Nat)} {k : String} (hk : k ∉ l.map Prod.fst)
    (t : Table String Calendar) : (l.foldl moved t).rows k = t.rows k := by
  induction l generalizing t with
  | nil => rfl
  | cons entry l ih =>
    rw [List.map_cons, List.mem_cons, not_or] at hk
    rw [List.foldl_cons, ih hk.2, moved, Table.rows_update]
    cases t.rows k with
    | none => rfl
    | some c => rw [Option.map_some, if_neg (by simpa using hk.1)]

theorem reordered_eq (ids : List String) (db : Db) :
    reordered ids db = { db with calendars := ids.zipIdx.foldl moved db.calendars } := rfl

theorem Inv.reordered (h : Inv db) (ids : List String) : Inv (reordered ids db) := by
  rw [reordered_eq]
  have ha := alike_moves ids.zipIdx db.calendars
  refine h.alike ⟨fun id c hc => ?_, fun id c' hc' => ?_⟩ (h.defaults.alike ha)
  · obtain ⟨c', hc', hs⟩ := ha.old id c hc
    exact ⟨c', hc', hs.toSameCalendar⟩
  · obtain ⟨c, hc, hs⟩ := ha.new id c' hc'
    exact ⟨c, hc, hs.toSameCalendar⟩

theorem guarded_reordered (hkey : .user user ∈ held)
    (hids : ∀ id ∈ ids, ∃ c, db.calendars.rows id = some c ∧ c.owner_user_id = user) :
    Guarded held db (reordered ids db) := by
  rw [reordered_eq]
  refine guarded_calendars fun k hne => ?_
  have hk : k ∈ ids := by
    by_contra hk
    exact hne (moves_of_notMem (by rwa [List.zipIdx_map_fst]) _)
  obtain ⟨c, hc, rfl⟩ := hids k hk
  refine ⟨fun c' hc' => ?_, fun c' hc' => ?_⟩
  · rw [hc] at hc'
    cases hc'
    exact hkey
  · obtain ⟨r, hr, hs⟩ := (alike_moves ids.zipIdx db.calendars).new k c' hc'
    rw [hc] at hr
    cases hr
    rw [hs.owner]
    exact hkey

/-! ## The writes of the subscriptions -/

theorem rows_updateSubscriptions {f : Subscription → Subscription} {sub' : Subscription}
    (h : (db.updateSubscriptions ids f).subscriptions.rows id = some sub') :
    ∃ sub, db.subscriptions.rows id = some sub ∧
      (id ∈ ids ∧ sub' = f sub ∨ id ∉ ids ∧ sub' = sub) := by
  unfold Db.updateSubscriptions at h
  rw [Table.rows_update] at h
  obtain ⟨sub, hsub, rfl⟩ := Option.map_eq_some_iff.1 h
  refine ⟨sub, hsub, ?_⟩
  by_cases hid : id ∈ ids
  · exact .inl ⟨hid, if_pos (decide_eq_true hid)⟩
  · exact .inr ⟨hid, if_neg (by simpa using hid)⟩

/-- New states of some subscriptions, after an owner's update of a calendar or without one. -/
theorem Inv.updateSubscriptions (h : Inv db) {f : Subscription → Subscription}
    (hf : ∀ sub, SameParties sub (f sub)) (hplace : Alike SamePlace db.calendars db'.calendars)
    (hdefaults : Defaults db'.calendars) (husers : db'.users = db.users)
    (hsubs : db'.subscriptions = db.subscriptions) (hevents : db'.events = db.events)
    (hopen : ∀ id sub, db.subscriptions.rows id = some sub →
      (id ∈ ids → (f sub).isOpen = true →
        ∃ c, db'.calendars.rows sub.calendar_id = some c ∧ Subscribed (f sub) c) ∧
      (id ∉ ids → sub.isOpen = true →
        ∃ c, db'.calendars.rows sub.calendar_id = some c ∧ Subscribed sub c)) :
    Inv (db'.updateSubscriptions ids f) where
  defaults := hdefaults
  subscribed := fun id sub' hrow hisOpen => by
    obtain ⟨sub, hsub, ⟨hid, rfl⟩ | ⟨hid, rfl⟩⟩ := rows_updateSubscriptions hrow
    · rw [hsubs] at hsub
      rw [(hf sub).calendar]
      exact (hopen id sub hsub).1 hid hisOpen
    · rw [hsubs] at hsub
      exact (hopen id sub' hsub).2 hid hisOpen
  placed := fun id e he hactive => h.placed_of hplace (hevents ▸ he) hactive
  homed := by
    refine h.homed.rewrite (fun _ => by rw [← husers]; rfl) (hplace.place fun _ _ hs => hs) ?_ ?_
    · rw [← hsubs]
      exact alike_update SameParties.refl _ _ hf
    · rw [← hevents]
      exact alike_refl SameOwner.refl _

theorem guarded_updateSubscriptions {f : Subscription → Subscription}
    (hf : ∀ sub, SameParties sub (f sub)) (hids : ∀ id ∈ ids, Key.subscription id ∈ held)
    (hopen : ∀ id ∈ ids, ∀ sub, db.subscriptions.rows id = some sub → (f sub).isOpen = true →
      ∃ c, db.calendars.rows sub.calendar_id = some c ∧ Key.user c.owner_user_id ∈ held) :
    Guarded held db (db.updateSubscriptions ids f) where
  users := fun _ => rfl
  calendars := fun _ hne => (hne rfl).elim
  events := fun _ _ he _ hne => (hne he).elim
  subscriptions := fun id hne => by
    have hid : id ∈ ids := by
      by_contra hid
      refine hne ?_
      unfold Db.updateSubscriptions
      rw [Table.rows_update]
      cases db.subscriptions.rows id with
      | none => rfl
      | some sub => rw [Option.map_some, if_neg (by simpa using hid)]
    refine ⟨fun sub hsub => ⟨hids id hid, f sub, ?_, hf sub⟩, fun sub' hsub' hisOpen => ?_⟩
    · unfold Db.updateSubscriptions
      rw [Table.rows_update, hsub, Option.map_some, if_pos (decide_eq_true hid)]
    · obtain ⟨sub, hsub, ⟨-, rfl⟩ | ⟨hnot, -⟩⟩ := rows_updateSubscriptions hsub'
      · rw [(hf sub).calendar]
        exact hopen id hid sub hsub hisOpen
      · exact absurd hid hnot

theorem isOpen_iff : sub.isOpen = true ↔ sub.status = .pending ∨ sub.status = .active := by
  simp only [Subscription.isOpen, Bool.or_eq_true, decide_eq_true_eq]

theorem not_isOpen_cancelled (sub : Subscription) : (cancelled sub).isOpen ≠ true := by
  rw [Ne, isOpen_iff]
  rintro (h | h) <;> cases h

/-- A subscription that its owner, or an open calendar, makes active. -/
theorem Subscribed.activated {actor : String} {visibility : Visibility}
    (hactive : c.status = .active) (hvisible : c.visibility ≠ .private)
    (horigin : visibility = .public ∨ actor = c.owner_user_id) :
    Subscribed (activated actor visibility sub) c where
  active := hactive
  visible := hvisible
  pending := nofun
  origin := fun _ => ⟨_, rfl, horigin⟩

theorem Inv.insertSubscription (h : Inv db) (hwrite : db.insertSubscription id sub = some db')
    (hmember : Member db sub.subscriber_user_id sub.company_id)
    (hc : db.calendars.rows sub.calendar_id = some c) (hcompany : c.company_id = sub.company_id)
    (hsub : sub.isOpen = true → Subscribed sub c) : Inv db' := by
  unfold Db.insertSubscription at hwrite
  split_ifs at hwrite with hfree
  cases hwrite
  refine ⟨h.defaults, fun k sub' hk hopen => ?_, h.placed, h.homed.calendars, h.homed.events,
    fun k sub' hk => ?_⟩
  · rw [Table.rows_set] at hk
    split_ifs at hk
    · cases hk
      exact ⟨c, hc, hsub hopen⟩
    · exact h.subscribed k sub' hk hopen
  · rw [Table.rows_set] at hk
    split_ifs at hk
    · cases hk
      exact ⟨hmember, c, hc, hcompany⟩
    · exact h.homed.subscriptions k sub' hk

theorem guarded_insertSubscription (hwrite : db.insertSubscription id sub = some db')
    (hc : db.calendars.rows sub.calendar_id = some c) (hkey : .user c.owner_user_id ∈ held) :
    Guarded held db db' := by
  unfold Db.insertSubscription at hwrite
  split_ifs at hwrite with hfree
  cases hwrite
  refine ⟨fun _ => rfl, fun _ hne => (hne rfl).elim, fun k hne => ?_,
    fun _ _ he _ hne => (hne he).elim⟩
  rw [Table.rows_set] at hne ⊢
  split_ifs at hne ⊢ with hk
  · subst hk
    refine ⟨fun sub' hsub' => ?_, fun sub' hsub' _ => ?_⟩
    · rw [hfree.1] at hsub'
      cases hsub'
    · cases hsub'
      exact ⟨c, hc, hkey⟩
  · exact (hne rfl).elim

/-! ## The writes of the events -/

theorem Inv.insertEvent (h : Inv db) {e : ScheduleEvent} (hwrite : db.insertEvent id e = some db')
    (hmember : Member db e.owner_user_id e.company_id)
    (hplace : ∃ c, db.calendars.rows e.calendar_id = some c ∧ owned e.owner_user_id c = true) :
    Inv db' := by
  unfold Db.insertEvent at hwrite
  split_ifs at hwrite with hfree
  cases hwrite
  refine ⟨h.defaults, h.subscribed, fun k e' hk hactive => ?_, h.homed.calendars,
    fun k e' hk => ?_, h.homed.subscriptions⟩
  · rw [Table.rows_set] at hk
    split_ifs at hk
    · cases hk
      exact hplace
    · exact h.placed k e' hk hactive
  · rw [Table.rows_set] at hk
    split_ifs at hk
    · cases hk
      exact hmember
    · exact h.homed.events k e' hk

theorem insertEvent_same {e : ScheduleEvent} (hwrite : db.insertEvent id e = some db') :
    db' = { db with events := db.events.set id e } := by
  unfold Db.insertEvent at hwrite
  split_ifs at hwrite with hfree
  exact (Option.some.inj hwrite).symm

theorem rows_updateEvents {p : String → ScheduleEvent → Bool} {f : ScheduleEvent → ScheduleEvent}
    {e' : ScheduleEvent} (h : (db.updateEvents p f).events.rows id = some e') :
    ∃ e, db.events.rows id = some e ∧ (p id e = true ∧ e' = f e ∨ p id e = false ∧ e' = e) := by
  unfold Db.updateEvents at h
  rw [Table.rows_update] at h
  obtain ⟨e, he, rfl⟩ := Option.map_eq_some_iff.1 h
  refine ⟨e, he, ?_⟩
  cases hp : p id e with
  | true => exact .inl ⟨rfl, rfl⟩
  | false => exact .inr ⟨rfl, rfl⟩

theorem Inv.updateEvents (h : Inv db) {p : String → ScheduleEvent → Bool}
    {f : ScheduleEvent → ScheduleEvent} (hf : ∀ e, SameOwner e (f e))
    (hplace : ∀ id e, db.events.rows id = some e → p id e = true → (f e).status = .active →
      ∃ c, db.calendars.rows (f e).calendar_id = some c ∧ owned e.owner_user_id c = true) :
    Inv (db.updateEvents p f) where
  defaults := h.defaults
  subscribed := h.subscribed
  placed := fun id e' hrow hactive => by
    obtain ⟨e, he, ⟨hp, rfl⟩ | ⟨-, rfl⟩⟩ := rows_updateEvents hrow
    · rw [(hf e).owner]
      exact hplace id e he hp hactive
    · exact h.placed id e' he hactive
  homed := h.homed.rewrite (fun _ => rfl) ((alike_refl SamePlace.refl _).place fun _ _ hs => hs)
    (alike_refl SameParties.refl _) (alike_update SameOwner.refl _ _ hf)

theorem guarded_updateEvents {p : String → ScheduleEvent → Bool} {f : ScheduleEvent → ScheduleEvent}
    (hkey : ∀ id e, db.events.rows id = some e → p id e = true → (f e).status = .active →
      Key.user (f e).owner_user_id ∈ held) : Guarded held db (db.updateEvents p f) where
  users := fun _ => rfl
  calendars := fun _ hne => (hne rfl).elim
  subscriptions := fun _ hne => (hne rfl).elim
  events := fun id e' hrow hactive hne => by
    obtain ⟨e, he, ⟨hp, rfl⟩ | ⟨-, rfl⟩⟩ := rows_updateEvents hrow
    · exact hkey id e he hp hactive
    · exact (hne he).elim

/-- A calendar that is no default is deleted, with its events and its subscriptions. -/
theorem Inv.removeCalendar (h : Inv db) (hrow : db.calendars.rows calendar_id = some current)
    (howned : owned user current = true) (hdefault : current.is_default = false)
    (hall : ∀ id sub, db.subscriptions.rows id = some sub → sub.calendar_id = calendar_id →
      sub.isOpen = true → id ∈ ids) : Inv (removeCalendar calendar_id ids db) := by
  have howner : current.owner_user_id = user := (owned_iff.1 howned).1
  have hrest : ∀ k, k ≠ calendar_id → (db.updateCalendars (fun k _ => decide (k = calendar_id))
      deletedCalendar).calendars.rows k = db.calendars.rows k := by
    intro k hk
    unfold Db.updateCalendars
    rw [Table.rows_update]
    cases db.calendars.rows k with
    | none => rfl
    | some c => rw [Option.map_some, if_neg (by simpa using hk)]
  have hgone : ∀ c, (db.updateCalendars (fun k _ => decide (k = calendar_id))
      deletedCalendar).calendars.rows calendar_id = some c → c = deletedCalendar current := by
    intro c hc
    unfold Db.updateCalendars at hc
    rw [Table.rows_update, hrow, Option.map_some, if_pos (decide_eq_true rfl)] at hc
    exact (Option.some.inj hc).symm
  refine ⟨?_, ?_, ?_, ?_⟩
  · obtain ⟨d, cd, hd, hdowned, hddef⟩ := h.defaults.any _ _ _ hrow howned
    have hne : d ≠ calendar_id := by
      rintro rfl
      rw [hrow] at hd
      cases hd
      rw [hdefault] at hddef
      cases hddef
    refine h.defaults.of_owner user (others_update (f := deletedCalendar) (fun _ => rfl) ?_)
      ((hrest d hne).trans hd) hdowned hddef ?_
    · intro k r hr hk
      rw [of_decide_eq_true hk, hrow] at hr
      cases hr
      exact howner
    · intro k c hc hc' hdef
      by_cases hk : k = calendar_id
      · subst hk
        rw [hgone c hc] at hdef
        cases hdef
      · exact h.defaults.one k d c cd user ((hrest k hk).symm.trans hc) hd hc' hdowned hdef hddef
  · intro id sub' hsub' hopen
    obtain ⟨sub, hsub, ⟨-, rfl⟩ | ⟨hid, rfl⟩⟩ := rows_updateSubscriptions hsub'
    · exact absurd hopen (not_isOpen_cancelled sub)
    · obtain ⟨c, hc, hs⟩ := h.subscribed id sub' hsub hopen
      have hne : sub'.calendar_id ≠ calendar_id := fun hcal => hid (hall id sub' hsub hcal hopen)
      exact ⟨c, (hrest _ hne).trans hc, hs⟩
  · intro id e' he' hactive
    unfold calendars.removeCalendar Db.updateSubscriptions at he'
    obtain ⟨e, he, ⟨-, rfl⟩ | ⟨hp, rfl⟩⟩ := rows_updateEvents he'
    · cases hactive
    · have hne : e'.calendar_id ≠ calendar_id := by
        intro hcal
        rw [hcal, hactive] at hp
        simp at hp
      obtain ⟨c, hc, hcowned⟩ := h.placed id e' he hactive
      exact ⟨c, (hrest _ hne).trans hc, hcowned⟩
  · exact h.homed.rewrite (fun _ => rfl)
      (alike_update (fun _ => ⟨rfl, rfl⟩) _ _ (fun _ => ⟨rfl, rfl⟩))
      (alike_update SameParties.refl _ _ (fun _ => ⟨rfl, rfl, rfl⟩))
      (alike_update SameOwner.refl _ _ (fun _ => ⟨rfl, rfl⟩))

theorem guarded_removeCalendar (hrow : db.calendars.rows calendar_id = some current)
    (howned : owned user current = true) (hkey : .user user ∈ held)
    (hids : ∀ id ∈ ids, Key.subscription id ∈ held) :
    Guarded held db (removeCalendar calendar_id ids db) := by
  have hcal : Guarded held db
      (db.updateCalendars (fun k _ => decide (k = calendar_id)) deletedCalendar) := by
    refine guarded_update (fun _ => rfl) fun id c hc hid => ?_
    rw [of_decide_eq_true hid, hrow] at hc
    cases hc
    rw [(owned_iff.1 howned).1]
    exact hkey
  have hsub : Guarded held db (db.updateSubscriptions ids cancelled) := by
    refine guarded_updateSubscriptions (fun _ => ⟨rfl, rfl, rfl⟩) hids fun _ _ sub _ hopen => ?_
    exact absurd hopen (not_isOpen_cancelled sub)
  have hev : Guarded held db (db.updateEvents (fun _ e => decide (e.calendar_id = calendar_id) &&
      decide (e.status = .active)) deletedEvent) :=
    guarded_updateEvents (fun _ _ _ _ hactive => nomatch hactive)
  exact ⟨fun _ => rfl, hcal.calendars, hsub.subscriptions, hev.events⟩

end moaworks.calendars
