-- The imports of the external mail, with the mails and the mailboxes: what the writes of the
-- collection and the commands of its sessions keep.
import MoaWorks.ExternalCollection

namespace moaworks.mail_external

/-- The import row of a message has committed, and its mail with it. -/
def Stored (db : Db) (account_id uidl : String) : Prop :=
  ∃ row m, db.imports.rows (account_id, uidl) = some row ∧
    db.messages.rows row.message_id = some m ∧ m.source_external_account_id = account_id

/-! ## Stores that grow -/

/-- What a step keeps: the imports with their mails, and the sessions with their marks. -/
structure Extends (s s' : Store) : Prop where
  imports : ∀ k row, s.db.imports.rows k = some row →
    ∃ row', s'.db.imports.rows k = some row' ∧ row'.message_id = row.message_id
  messages : ∀ id m, s.db.messages.rows id = some m → s'.db.messages.rows id = some m
  drops : ∀ account_id, (s.drops account_id).Evolves (s'.drops account_id)

theorem Extends.refl (s : Store) : Extends s s :=
  ⟨fun _ row h => ⟨row, h, rfl⟩, fun _ _ h => h, fun _ => Maildrop.evolves_of_eq rfl⟩

theorem Extends.trans {s s' s'' : Store} (h : Extends s s') (h' : Extends s' s'') :
    Extends s s'' where
  imports := by
    intro k row hrow
    obtain ⟨row', hrow', hid⟩ := h.imports k row hrow
    obtain ⟨row'', hrow'', hid'⟩ := h'.imports k row' hrow'
    exact ⟨row'', hrow'', hid'.trans hid⟩
  messages := fun id m hm => h'.messages id m (h.messages id m hm)
  drops := fun account_id => (h.drops account_id).trans (h'.drops account_id)

theorem Stored.extends {s s' : Store} {account_id uidl : String}
    (h : Stored s.db account_id uidl) (he : Extends s s') : Stored s'.db account_id uidl := by
  obtain ⟨row, m, hrow, hm, hsource⟩ := h
  obtain ⟨row', hrow', hid⟩ := he.imports _ row hrow
  exact ⟨row', m, hrow', hid ▸ he.messages _ m hm, hsource⟩

theorem extends_setDrop (s : Store) (account_id : String) {d : Maildrop String}
    (h : (s.drops account_id).Evolves d) : Extends s (s.setDrop account_id d) := by
  refine ⟨(Extends.refl s).imports, (Extends.refl s).messages, fun id => ?_⟩
  change (s.drops id).Evolves (if id = account_id then d else s.drops id)
  split_ifs with hid
  · rw [hid]
    exact h
  · exact Maildrop.evolves_of_eq rfl

theorem extends_leave (s : Store) (account_id : String) (client : Option Nat)
    (sees : Option Bool) : Extends s (leave s account_id client sees) := by
  unfold leave
  cases client with
  | none => exact .refl s
  | some i => cases sees with
    | none => exact extends_setDrop s account_id (Maildrop.evolves_cut _ i)
    | some replied => exact extends_setDrop s account_id (Maildrop.evolves_quit _ i replied)

/-- A write that leaves the imports and the mails as they are. -/
def Untouched (db db' : Db) : Prop := db'.imports = db.imports ∧ db'.messages = db.messages

/-- A step over the tables that leaves the imports and the mails as they are. -/
theorem extends_db (s : Store) {db : Db} (himports : db.imports = s.db.imports)
    (hmessages : db.messages = s.db.messages) : Extends s { s with db := db } := by
  refine ⟨fun k row hrow => ⟨row, ?_, rfl⟩, fun id m hm => ?_, (Extends.refl s).drops⟩
  · change db.imports.rows k = some row
    rw [himports]
    exact hrow
  · change db.messages.rows id = some m
    rw [hmessages]
    exact hm

theorem set_remote_states_rows (account_id : String) (uidls : List String)
    (status : RemoteDeleteStatus) (code : Option String) (now : Time) (db : Db)
    (k : String × String) :
    (_set_remote_states account_id uidls status code now db).imports.rows k =
      (db.imports.rows k).map (fun row =>
        if k.1 = account_id ∧ k.2 ∈ uidls then withRemoteState status code now row
        else row) := by
  unfold _set_remote_states
  rw [Table.rows_update]
  simp only [Bool.and_eq_true, decide_eq_true_eq]

theorem extends_set_remote_states (s : Store) (account_id : String) (uidls : List String)
    (status : RemoteDeleteStatus) (code : Option String) (now : Time) :
    Extends s { s with db := _set_remote_states account_id uidls status code now s.db } := by
  refine ⟨fun k row hrow => ?_, fun id m hm => hm, (Extends.refl s).drops⟩
  change ∃ row', (_set_remote_states account_id uidls status code now s.db).imports.rows k =
    some row' ∧ _
  rw [set_remote_states_rows, hrow]
  refine ⟨_, rfl, ?_⟩
  dsimp only
  split_ifs with hnamed
  · rfl
  · rfl

/-! ## The invariant of the tables and the mailboxes -/

structure Mailboxes (s : Store) : Prop where
  numbering : ∀ account_id, ∀ session ∈ (s.drops account_id).sessions,
    (session.numbering.map Prod.snd).Nodup
  marked : ∀ account_id, ∀ session ∈ (s.drops account_id).sessions, ∀ u ∈ session.marked,
    Stored s.db account_id u
  deleted : ∀ account_id u row, s.db.imports.rows (account_id, u) = some row →
    row.remote_delete_status = .deleted → (s.drops account_id).Confirmed u
  imported : ∀ k row, s.db.imports.rows k = some row →
    ∃ m, s.db.messages.rows row.message_id = some m ∧ m.source_external_account_id = k.1
  single : ∀ id m, s.db.messages.rows id = some m → ∃ k row, s.db.imports.rows k = some row ∧
    row.message_id = id ∧
    ∀ k' row', s.db.imports.rows k' = some row' → row'.message_id = id → k' = k

theorem Mailboxes.stored {s : Store} (h : Mailboxes s) {account_id uidl : String} {row : Import}
    (hrow : s.db.imports.rows (account_id, uidl) = some row) : Stored s.db account_id uidl := by
  obtain ⟨m, hm, hsource⟩ := h.imported _ row hrow
  exact ⟨row, m, hrow, hm, hsource⟩

/-- The sessions of the mailboxes go on, and their marks with them. -/
theorem Mailboxes.setDrop {s : Store} (h : Mailboxes s) (account_id : String)
    {d : Maildrop String} (he : (s.drops account_id).Evolves d)
    (hsessions : ∀ session ∈ d.sessions, (session.numbering.map Prod.snd).Nodup ∧
      ∀ u ∈ session.marked, Stored s.db account_id u) : Mailboxes (s.setDrop account_id d) where
  numbering := by
    intro id session hmem
    change session ∈ (if id = account_id then d else s.drops id).sessions at hmem
    split_ifs at hmem with hid
    · exact (hsessions session hmem).1
    · exact h.numbering id session hmem
  marked := by
    intro id session hmem u hu
    change session ∈ (if id = account_id then d else s.drops id).sessions at hmem
    split_ifs at hmem with hid
    · subst hid
      exact (hsessions session hmem).2 u hu
    · exact h.marked id session hmem u hu
  deleted := by
    intro id u row hrow hstatus
    exact (h.deleted id u row hrow hstatus).evolves ((extends_setDrop s account_id he).drops id)
  imported := h.imported
  single := h.single

theorem Mailboxes.marksFrom {s : Store} (h : Mailboxes s) (account_id : String)
    {d : Maildrop String} (he : (s.drops account_id).Evolves d)
    (hm : (s.drops account_id).MarksFrom d) : Mailboxes (s.setDrop account_id d) := by
  refine h.setDrop account_id he (fun session hsession => ?_)
  obtain ⟨before, hbefore, hnumbering, hmarked⟩ := hm session hsession
  rw [hnumbering, hmarked]
  exact ⟨h.numbering account_id before hbefore, h.marked account_id before hbefore⟩

theorem Mailboxes.leave {s : Store} (h : Mailboxes s) (account_id : String)
    (client : Option Nat) (sees : Option Bool) :
    Mailboxes (leave s account_id client sees) := by
  unfold mail_external.leave
  cases client with
  | none => exact h
  | some i => cases sees with
    | none => exact h.marksFrom account_id (Maildrop.evolves_cut _ i) (Maildrop.marksFrom_cut _ i)
    | some replied =>
      exact h.marksFrom account_id (Maildrop.evolves_quit _ i replied)
        (Maildrop.marksFrom_quit _ i replied)

theorem Mailboxes.setDb {s : Store} (h : Mailboxes s) {db : Db}
    (himports : db.imports = s.db.imports) (hmessages : db.messages = s.db.messages) :
    Mailboxes { s with db := db } where
  numbering := h.numbering
  marked := fun account_id session hsession u hu =>
    (h.marked account_id session hsession u hu).extends (extends_db s himports hmessages)
  deleted := by
    intro account_id u row hrow
    change db.imports.rows _ = _ at hrow
    rw [himports] at hrow
    exact h.deleted account_id u row hrow
  imported := by
    change ∀ k row, db.imports.rows k = some row → ∃ m, db.messages.rows _ = some m ∧ _
    rw [himports, hmessages]
    exact h.imported
  single := by
    change ∀ id m, db.messages.rows id = some m → ∃ k row, db.imports.rows k = some row ∧ _ ∧
      ∀ k' row', db.imports.rows k' = some row' → _
    rw [himports, hmessages]
    exact h.single

/-- Marks that are written to the imports: as deleted only after a QUIT that succeeded. -/
theorem Mailboxes.set_remote_states {s : Store} (h : Mailboxes s) (account_id : String)
    (uidls : List String) (status : RemoteDeleteStatus) (code : Option String) (now : Time)
    (hdeleted : status = .deleted → ∀ u ∈ uidls, (s.drops account_id).Confirmed u) :
    Mailboxes { s with db := _set_remote_states account_id uidls status code now s.db } := by
  have hrows : ∀ k row', (_set_remote_states account_id uidls status code now
      s.db).imports.rows k = some row' → ∃ row, s.db.imports.rows k = some row ∧
        row'.message_id = row.message_id ∧ (row'.remote_delete_status = .deleted →
          row.remote_delete_status = .deleted ∨ status = .deleted ∧ k.1 = account_id ∧
            k.2 ∈ uidls) := by
    intro k row' hrow'
    rw [set_remote_states_rows] at hrow'
    obtain ⟨row, hrow, rfl⟩ := Option.map_eq_some_iff.1 hrow'
    refine ⟨row, hrow, ?_⟩
    split_ifs with hnamed
    · exact ⟨rfl, fun hstatus => .inr ⟨hstatus, hnamed⟩⟩
    · exact ⟨rfl, .inl⟩
  refine ⟨h.numbering, fun id session hsession u hu => ?_, fun id u row' hrow' hstatus => ?_,
    fun k row' hrow' => ?_, fun id m hm => ?_⟩
  · exact (h.marked id session hsession u hu).extends
      (extends_set_remote_states s account_id uidls status code now)
  · obtain ⟨row, hrow, _, hcases⟩ := hrows _ row' hrow'
    rcases hcases hstatus with hbefore | ⟨hnow, rfl, hu⟩
    · exact h.deleted id u row hrow hbefore
    · exact hdeleted hnow u hu
  · obtain ⟨row, hrow, hid, _⟩ := hrows k row' hrow'
    rw [hid]
    exact h.imported k row hrow
  · obtain ⟨k, row, hrow, hid, honly⟩ := h.single id m hm
    obtain ⟨row', hrow', hid'⟩ := (extends_set_remote_states s account_id uidls status code
      now).imports k row hrow
    refine ⟨k, row', hrow', hid'.trans hid, fun k₂ row₂ hrow₂ hid₂ => ?_⟩
    obtain ⟨row₁, hrow₁, hid₁, _⟩ := hrows k₂ row₂ hrow₂
    exact honly k₂ row₁ hrow₁ (hid₁ ▸ hid₂)

section Importing

variable {s : Store} {context : Context} {uidl : String} {parsed : Mime} {message_id : String}
  {now : Time} {db : Db}

/-- `_store` writes a row and a mail, both new. -/
theorem store_true (h : _store context uidl parsed message_id now s.db = (true, db)) :
    s.db.imports.rows (context.account_id, uidl) = none ∧
    ∃ row, row.message_id = message_id ∧ row.remote_delete_status ≠ .deleted ∧
      db.imports = s.db.imports.set (context.account_id, uidl) row ∧
      db.messages = s.db.messages.set message_id (messageOf context parsed now) := by
  unfold _store at h
  cases hrow : s.db.imports.rows (context.account_id, uidl) with
  | some row =>
    rw [hrow] at h
    cases h
  | none =>
    rw [hrow] at h
    cases h
    refine ⟨rfl, _, rfl, ?_, rfl, rfl⟩
    dsimp only
    split_ifs with hdelete
    · exact fun heq => RemoteDeleteStatus.noConfusion heq
    · exact fun heq => RemoteDeleteStatus.noConfusion heq

theorem store_false (h : _store context uidl parsed message_id now s.db = (false, db)) :
    db = s.db := by
  unfold _store at h
  cases hrow : s.db.imports.rows (context.account_id, uidl) with
  | none =>
    rw [hrow] at h
    cases h
  | some row =>
    rw [hrow] at h
    exact (Prod.mk.inj h).2.symm

theorem extends_store (hnew : s.db.messages.rows message_id = none)
    (h : _store context uidl parsed message_id now s.db = (true, db)) :
    Extends s { s with db := db } := by
  obtain ⟨hnone, row, _, _, himports, hmessages⟩ := store_true h
  refine ⟨fun k row' hrow' => ⟨row', ?_, rfl⟩, fun id m hm => ?_, (Extends.refl s).drops⟩
  · change db.imports.rows k = some row'
    rw [himports, Table.rows_set_ne]
    · exact hrow'
    · rintro rfl
      rw [hnone] at hrow'
      cases hrow'
  · change db.messages.rows id = some m
    rw [hmessages, Table.rows_set_ne]
    · exact hm
    · rintro rfl
      rw [hnew] at hm
      cases hm

theorem Mailboxes.store (hs : Mailboxes s) (hnew : s.db.messages.rows message_id = none)
    (h : _store context uidl parsed message_id now s.db = (true, db)) :
    Mailboxes { s with db := db } ∧ Stored db context.account_id uidl := by
  obtain ⟨hnone, row, hid, hstatus, himports, hmessages⟩ := store_true h
  have he := extends_store hnew h
  have hself : db.messages.rows message_id = some (messageOf context parsed now) := by
    rw [hmessages]
    exact Table.rows_set_self _ _ _
  have hrows : ∀ k row', db.imports.rows k = some row' →
      k = (context.account_id, uidl) ∧ row' = row ∨ s.db.imports.rows k = some row' := by
    intro k row' hrow'
    rw [himports, Table.rows_set] at hrow'
    split_ifs at hrow' with hk
    · exact .inl ⟨hk, (Option.some.inj hrow').symm⟩
    · exact .inr hrow'
  -- No row of before stands for the new mail.
  have hother : ∀ k row', s.db.imports.rows k = some row' → row'.message_id ≠ message_id := by
    intro k row' hrow' heq
    obtain ⟨m, hm, _⟩ := hs.imported k row' hrow'
    rw [heq, hnew] at hm
    cases hm
  refine ⟨⟨hs.numbering, fun id session hsession u hu => ?_, fun id u row' hrow' hdeleted => ?_,
    fun k row' hrow' => ?_, fun id m hm => ?_⟩, ?_⟩
  · exact (hs.marked id session hsession u hu).extends he
  · rcases hrows _ row' hrow' with ⟨_, rfl⟩ | hbefore
    · exact absurd hdeleted hstatus
    · exact hs.deleted id u row' hbefore hdeleted
  · rcases hrows k row' hrow' with ⟨rfl, rfl⟩ | hbefore
    · exact ⟨_, hid.symm ▸ hself, rfl⟩
    · obtain ⟨m, hm, hsource⟩ := hs.imported k row' hbefore
      exact ⟨m, he.messages _ m hm, hsource⟩
  · by_cases heq : id = message_id
    · subst heq
      refine ⟨(context.account_id, uidl), row, ?_, hid, fun k' row' hrow' hid' => ?_⟩
      · change db.imports.rows _ = _
        rw [himports]
        exact Table.rows_set_self _ _ _
      · rcases hrows k' row' hrow' with ⟨hk, _⟩ | hbefore
        · exact hk
        · exact absurd hid' (hother k' row' hbefore)
    · change db.messages.rows id = some m at hm
      rw [hmessages, Table.rows_set_ne _ _ heq] at hm
      obtain ⟨k, row₀, hrow₀, hid₀, honly⟩ := hs.single id m hm
      obtain ⟨row₁, hrow₁, hid₁⟩ := he.imports k row₀ hrow₀
      refine ⟨k, row₁, hrow₁, hid₁.trans hid₀, fun k' row' hrow' hid' => ?_⟩
      rcases hrows k' row' hrow' with ⟨_, rfl⟩ | hbefore
      · exact absurd (hid'.symm.trans hid) heq
      · exact honly k' row' hbefore hid'
  · refine ⟨row, _, ?_, hid.symm ▸ hself, rfl⟩
    rw [himports]
    exact Table.rows_set_self _ _ _

end Importing

end moaworks.mail_external
