-- No signature file is lost: in every run, each key that preferences or a
-- line name still has its file.
import MoaWorks.Signatures

namespace moaworks.approval_signatures

open approvals (Db Document Line Preference Signature)
open approval_delegations (_seoul_today)
open directory_store (AuthUserSummary Directory Error)
open Raise (bind_ok require_ok)

variable {w w' : World} {t u : Nat} {key : String} {document : Document} {now : Time}
  {actor : AuthUserSummary} {reason : String} {call : Update} {current : Option Preference}
variable {db : Db} {document_id user_id : String} {a : approvals.Action} {session : Session}

/-! ## The keys on the lines of a document -/

theorem shows_mapLines {f : Line → Line}
    (hf : ∀ line, (f line).id = line.id ∧ (f line).sequence = line.sequence)
    (h : Shows (document.mapLines f hf) key) :
    ∃ line ∈ document.lines, (f line).signature.storage_key = some key := by
  obtain ⟨line, hline, hkey⟩ := h
  obtain ⟨before, hbefore, rfl⟩ := List.mem_map.1 hline
  exact ⟨before, hbefore, hkey⟩

theorem shows_force_approved (h : Shows (approvals.force_approved document reason actor now) key) :
    Shows document key := by
  obtain ⟨line, hline, hkey⟩ := shows_mapLines (Line.force_approve_key reason actor now) h
  refine ⟨line, hline, ?_⟩
  unfold Line.force_approve at hkey
  split_ifs at hkey
  · exact hkey
  · exact hkey

theorem shows_force_rejected (h : Shows (approvals.force_rejected document reason actor now) key) :
    Shows document key := by
  obtain ⟨line, hline, hkey⟩ := shows_mapLines (Line.force_reject_key reason actor now) h
  refine ⟨line, hline, ?_⟩
  unfold Line.force_reject at hkey
  split_ifs at hkey
  · exact hkey
  · exact hkey

theorem shows_line_rejected {target : Line} {delegation_id : Option String}
    (h : Shows (approvals.line_rejected document target reason actor now delegation_id) key) :
    Shows document key := by
  obtain ⟨line, hline, hkey⟩ := shows_mapLines
    (target.decide_key .rejected reason actor now none delegation_id) h
  refine ⟨line, hline, ?_⟩
  unfold Line.decide at hkey
  split_ifs at hkey
  · exact hkey
  · exact hkey

/-- The target gets the snapshot, and the other lines keep what they have. -/
theorem shows_line_approved {target : Line} {snapshot : Signature} {delegation_id : Option String}
    (h : Shows (approvals.line_approved document target reason actor now snapshot delegation_id) key) :
    Shows document key ∨ snapshot.storage_key = some key := by
  have hlines : Shows (document.mapLines
      (target.decide .approved reason actor now (some snapshot) delegation_id)
      (target.decide_key .approved reason actor now (some snapshot) delegation_id)) key := by
    unfold approvals.line_approved at h
    split at h
    · exact h
    · exact h
  obtain ⟨line, hline, hkey⟩ := shows_mapLines
    (target.decide_key .approved reason actor now (some snapshot) delegation_id) hlines
  unfold Line.decide at hkey
  split_ifs at hkey
  · exact Or.inr hkey
  · exact Or.inl ⟨line, hline, hkey⟩

/-- A redraft forgets the signatures. -/
theorem shows_redrafted : ¬ Shows (approvals.redrafted document now) key := by
  intro h
  obtain ⟨line, _, hkey⟩ := shows_mapLines (f := Line.reset) (fun _ => ⟨rfl, rfl⟩) h
  cases hkey

theorem shows_new_document {ids : approvals.NewIds} {payload : approvals.Payload}
    {approvers : List approvals.Approver} :
    ¬ Shows (approvals.new_document ids actor payload approvers now) key := by
  rintro ⟨line, hline, hkey⟩
  obtain ⟨entry, _, rfl⟩ := List.mem_map.1 hline
  cases hkey

theorem signed_set {db' : Db} (hdocuments : db'.documents = db.documents.set document_id document)
    (h : Signed db' key) : Signed db key ∨ Shows document key := by
  obtain ⟨id, row, hrow, hshows⟩ := h
  rw [hdocuments, Table.rows_set] at hrow
  split_ifs at hrow with hid
  · cases hrow
    exact Or.inr hshows
  · exact Or.inl ⟨id, row, hrow, hshows⟩

/-! ## The other operations -/

/-- What an operation that is no decision, no redraft and no update leaves. -/
structure Apart (db : Db) (a : approvals.Action) (db' : Db) : Prop where
  preferences : db'.preferences = db.preferences
  documents : ∀ id, documentOf a ≠ some id → db'.documents.rows id = db.documents.rows id
  signed : ∀ key, Signed db' key → Signed db key
  stored : ∀ key, db.stored key = true → db'.stored key = true

/-- Nothing that has to do with signatures has changed. -/
theorem Apart.same {db' : Db} (hpreferences : db'.preferences = db.preferences)
    (hdocuments : db'.documents = db.documents) (hstored : db'.stored = db.stored) :
    Apart db a db' := by
  refine ⟨hpreferences, ?_, ?_, ?_⟩
  · intro id _
    rw [hdocuments]
  · rintro key ⟨id, document, hrow, hshows⟩
    rw [hdocuments] at hrow
    exact ⟨id, document, hrow, hshows⟩
  · intro key hkey
    rw [hstored]
    exact hkey

/-- One document is written, and its new lines have no other keys. -/
theorem Apart.written {db' : Db} (hdocument : documentOf a = some document_id)
    (h : approvals.Written db document_id document db')
    (hshows : ∀ key, Shows document key → Signed db key) : Apart db a db' := by
  refine ⟨h.preferences, ?_, ?_, ?_⟩
  · intro id hid
    rw [h.documents, Table.rows_set_ne]
    rintro rfl
    exact hid hdocument
  · intro key hkey
    exact (signed_set h.documents hkey).elim id (hshows key)
  · intro key hkey
    rw [h.stored]
    exact hkey

theorem operate_apart {decisions : String → List approvals.Decision} {after : approvals.World}
    (hplain : plain a = true) (h : approvals.step ⟨db, decisions⟩ a = some after) :
    Apart db a after.db := by
  cases a with
  | create actor_id document_id ids payload now =>
    obtain ⟨db', hok, rfl⟩ := approvals.commit_eq_some h
    obtain ⟨_, _, _, _, _, hwritten⟩ := approvals.create_ok hok
    exact .written rfl hwritten (fun _ hshows => absurd hshows shows_new_document)
  | update actor_id document_id ids payload now =>
    obtain ⟨db', hok, rfl⟩ := approvals.commit_eq_some h
    obtain ⟨_, _, _, _, _, _, hwritten⟩ := approvals.update_ok hok
    refine .written rfl hwritten ?_
    rintro _ ⟨_, hline, _⟩
    cases hline
  | submit actor_id document_id now =>
    obtain ⟨w₁, hcommit, rfl⟩ := Option.map_eq_some_iff.1 h
    obtain ⟨db', hok, rfl⟩ := approvals.commit_eq_some hcommit
    obtain ⟨_, document, _, hsaved⟩ := approvals.submit_ok hok
    exact .written rfl hsaved.written (fun _ hshows => ⟨document_id, document, hsaved.row, hshows⟩)
  | withdraw actor_id document_id now =>
    obtain ⟨db', hok, rfl⟩ := approvals.commit_eq_some h
    obtain ⟨_, document, hsaved⟩ := approvals.withdraw_ok hok
    exact .written rfl hsaved.written (fun _ hshows => ⟨document_id, document, hsaved.row, hshows⟩)
  | read actor_id document_id now started =>
    obtain ⟨db', hok, rfl⟩ := approvals.commit_eq_some h
    obtain ⟨⟨audiences, audit_logs, rfl⟩, _⟩ := approvals.read_ok hok
    exact .same rfl rfl rfl
  | trash actor_id document_id state now =>
    obtain ⟨db', hok, rfl⟩ := approvals.commit_eq_some h
    obtain ⟨_, _, _, _, _, _, audit_logs, hdb⟩ := approvals.trash_ok hok
    dsimp only
    rw [hdb]
    exact .same rfl rfl rfl
  | stage upload_id upload =>
    cases h
    refine ⟨rfl, fun _ _ => rfl, fun _ hkey => hkey, ?_⟩
    intro key hkey
    dsimp only
    rw [hkey, Bool.true_or]
  | delegate delegation_id row =>
    dsimp only [approvals.step] at h
    split_ifs at h
    cases h
    exact .same rfl rfl rfl
  | administer change =>
    obtain ⟨directory, _, rfl⟩ := Option.map_eq_some_iff.1 h
    exact .same rfl rfl rfl
  | decide => cases hplain
  | rework => cases hplain
  | prefer => cases hplain

/-! ## The invariant -/

/-- The file is there, nothing refers to it, and it is in the hands of `t` alone. -/
structure Fresh (w : World) (t : Nat) (key : String) : Prop where
  stored : w.db.stored key = true
  drawn : w.drawn key = true
  free : ¬ Recorded w.db key
  mine : ∀ u, (w.sessions u).staging = some key → u = t

/-- Nothing refers to the key, and no session will record it. -/
structure Dead (w : World) (key : String) : Prop where
  drawn : w.drawn key = true
  free : ¬ Recorded w.db key
  unstaged : ∀ u, (w.sessions u).staging ≠ some key

/-- `t` reads preferences that name the key. -/
def Reads (w : World) (t : Nat) (key : String) : Prop :=
  ∃ user_id, t ∈ w.preferences.readers user_id ∧ Preferred w.db user_id key

/-- `t` has the lock of the document, so the row is still the one that it read. -/
def Holds (w : World) (t : Nat) (document_id : String) (document : Document) : Prop :=
  w.documents.holder document_id = some t ∧ w.db.documents.rows document_id = some document

/-- The row that an update has locked. -/
def Owns (w : World) (t : Nat) (user_id : String) (current : Option Preference) : Prop :=
  ∀ row, current = some row →
    w.preferences.writer user_id = some t ∧ w.db.preferences.rows user_id = some row

/-- What the reference check has found of the old key. -/
structure Unreferenced (db : Db) (call : Update) (current : Option Preference) (key : String) : Prop where
  old : old_storage_key current = some key
  replaced : (signature_values call current).storage_key ≠ some key
  unsigned : ¬ Signed db key

/-- What a session can rely on, by its phase. -/
def Sound (w : World) (t : Nat) : Session → Prop
  | .locked actor _ current => Owns w t actor.userId current
  | .upserted actor _ current =>
    w.preferences.writer actor.userId = some t ∧ Owns w t actor.userId current
  | .checked actor call current garbage =>
    w.preferences.writer actor.userId = some t ∧ Owns w t actor.userId current ∧
      ∀ key, garbage = some key → Unreferenced w.db call current key
  | .committed garbage => ∀ key, garbage = some key → Dead w key
  | .targeted _ call document _ _ => Holds w t call.document_id document
  | .signed _ call document _ _ snapshot =>
    Holds w t call.document_id document ∧ ∀ key, snapshot.storage_key = some key → Reads w t key
  | .drawn document_id after =>
    ∃ document, Holds w t document_id document ∧
      ∀ key, Shows after key → Shows document key ∨ Reads w t key
  | _ => True

structure Invariant (w : World) : Prop where
  kept : Kept w.db
  known : ∀ key, Recorded w.db key → w.drawn key = true
  unique : ∀ user_id other key, Preferred w.db user_id key → Preferred w.db other key →
    user_id = other
  fresh : ∀ t key, (w.sessions t).staging = some key → Fresh w t key
  sound : ∀ t, Sound w t (w.sessions t)

theorem Reads.preferred (h : Reads w t key) : ∃ user_id, Preferred w.db user_id key :=
  h.elim (fun user_id hread => ⟨user_id, hread.2⟩)

theorem Reads.recorded (h : Reads w t key) : Recorded w.db key := Or.inl h.preferred

/-! ## What a step leaves to the other sessions -/

/-- A step of `t` takes no lock and no phase from another session. -/
structure Spares (t : Nat) (w w' : World) : Prop where
  sessions : ∀ u, u ≠ t → w'.sessions u = w.sessions u
  holder : ∀ u id, u ≠ t → w.documents.holder id = some u → w'.documents.holder id = some u
  writer : ∀ u id, u ≠ t → w.preferences.writer id = some u → w'.preferences.writer id = some u
  readers : ∀ u id, u ≠ t → u ∈ w.preferences.readers id → u ∈ w'.preferences.readers id

/-- A step of `t` changes rows that are not locked by others, records no key
but those that it has, and deletes no file that is needed. -/
structure Frame (t : Nat) (w w' : World) : Prop extends Spares t w w' where
  documents : ∀ u id, u ≠ t → w.documents.holder id = some u →
    w'.db.documents.rows id = w.db.documents.rows id
  written : ∀ u id, u ≠ t → w.preferences.writer id = some u →
    w'.db.preferences.rows id = w.db.preferences.rows id
  read : ∀ u id, u ≠ t → u ∈ w.preferences.readers id →
    w'.db.preferences.rows id = w.db.preferences.rows id
  signed : ∀ key, Signed w'.db key → Signed w.db key ∨ Reads w t key
  recorded : ∀ key, Recorded w'.db key → Recorded w.db key ∨ (w.sessions t).staging = some key
  drawn : ∀ key, w.drawn key = true → w'.drawn key = true
  staging : ∀ key, (w'.sessions t).staging = some key →
    (w.sessions t).staging = some key ∨ w.drawn key = false
  stored : ∀ key, w.db.stored key = true → w'.db.stored key = true ∨
    (¬ Recorded w'.db key ∧ ∀ u, u ≠ t → (w.sessions u).staging ≠ some key)

theorem Frame.fresh (hi : Invariant w) (hf : Frame t w w') (hne : u ≠ t)
    (h : (w'.sessions u).staging = some key) : Fresh w' u key := by
  rw [hf.sessions u hne] at h
  have hfresh := hi.fresh u key h
  refine ⟨?_, hf.drawn key hfresh.drawn, ?_, ?_⟩
  · rcases hf.stored key hfresh.stored with hstored | ⟨_, hothers⟩
    · exact hstored
    · exact absurd h (hothers u hne)
  · intro hrecorded
    rcases hf.recorded key hrecorded with hold | hstaging
    · exact hfresh.free hold
    · exact hne (hfresh.mine t hstaging).symm
  · intro v hv
    by_cases hvt : v = t
    · subst hvt
      rcases hf.staging key hv with hold | hundrawn
      · exact hfresh.mine v hold
      · rw [hfresh.drawn] at hundrawn
        cases hundrawn
    · rw [hf.sessions v hvt] at hv
      exact hfresh.mine v hv

theorem Frame.dead (hf : Frame t w w') (h : Dead w key) : Dead w' key := by
  refine ⟨hf.drawn key h.drawn, ?_, ?_⟩
  · intro hrecorded
    rcases hf.recorded key hrecorded with hold | hstaging
    · exact h.free hold
    · exact h.unstaged t hstaging
  · intro u hu
    by_cases hut : u = t
    · subst hut
      rcases hf.staging key hu with hold | hundrawn
      · exact h.unstaged u hold
      · rw [h.drawn] at hundrawn
        cases hundrawn
    · rw [hf.sessions u hut] at hu
      exact h.unstaged u hu

theorem Frame.reads (hf : Frame t w w') (hne : u ≠ t) (h : Reads w u key) : Reads w' u key := by
  obtain ⟨user_id, hread, row, hrow, hkey⟩ := h
  refine ⟨user_id, hf.readers u user_id hne hread, row, ?_, hkey⟩
  rw [hf.read u user_id hne hread]
  exact hrow

theorem Frame.holds (hf : Frame t w w') (hne : u ≠ t) (h : Holds w u document_id document) :
    Holds w' u document_id document := by
  refine ⟨hf.holder u document_id hne h.1, ?_⟩
  rw [hf.documents u document_id hne h.1]
  exact h.2

theorem Frame.owns (hf : Frame t w w') (hne : u ≠ t) (h : Owns w u user_id current) :
    Owns w' u user_id current := by
  intro row hcurrent
  obtain ⟨hwriter, hrow⟩ := h row hcurrent
  refine ⟨hf.writer u user_id hne hwriter, ?_⟩
  rw [hf.written u user_id hne hwriter]
  exact hrow

/-- No one signs with the old key of `u`: the only preferences that name it
are locked by `u`, and whoever reads them is `u`. -/
theorem Frame.unreferenced (hi : Invariant w) (hf : Frame t w w') (hne : u ≠ t)
    (howns : Owns w u user_id current) (h : Unreferenced w.db call current key) :
    Unreferenced w'.db call current key := by
  refine ⟨h.old, h.replaced, ?_⟩
  intro hsigned
  rcases hf.signed key hsigned with hold | ⟨other, hread, hother⟩
  · exact h.unsigned hold
  · obtain ⟨row, rfl, hkey⟩ := Option.bind_eq_some_iff.1 h.old
    obtain ⟨hwriter, hrow⟩ := howns row rfl
    obtain rfl := hi.unique other user_id key hother ⟨row, hrow, hkey⟩
    exact hne (w.preferences.alone other u t hwriter hread).symm

theorem Frame.sound (hi : Invariant w) (hf : Frame t w w') (hne : u ≠ t) :
    Sound w' u (w'.sessions u) := by
  rw [hf.sessions u hne]
  have h := hi.sound u
  cases hsession : w.sessions u <;> rw [hsession] at h
  case locked => exact hf.owns hne h
  case upserted => exact ⟨hf.writer u _ hne h.1, hf.owns hne h.2⟩
  case checked =>
    exact ⟨hf.writer u _ hne h.1, hf.owns hne h.2.1,
      fun key hkey => hf.unreferenced hi hne h.2.1 (h.2.2 key hkey)⟩
  case committed => exact fun key hkey => hf.dead (h key hkey)
  case targeted => exact hf.holds hne h
  case signed => exact ⟨hf.holds hne h.1, fun key hkey => hf.reads hne (h.2 key hkey)⟩
  case drawn =>
    obtain ⟨document, hholds, hshows⟩ := h
    exact ⟨document, hf.holds hne hholds, fun key hkey => (hshows key hkey).imp id (hf.reads hne)⟩
  all_goals trivial

/-- The rule for one step: what it leaves to the others, and what its own
session has after it. -/
theorem Invariant.next (hi : Invariant w) (hf : Frame t w w')
    (hunique : ∀ user_id other key, Preferred w'.db user_id key → Preferred w'.db other key →
      user_id = other)
    (hfresh : ∀ key, (w'.sessions t).staging = some key → Fresh w' t key)
    (hsound : Sound w' t (w'.sessions t)) : Invariant w' := by
  have hstored : ∀ key, Recorded w'.db key → w.db.stored key = true ∧ w.drawn key = true := by
    intro key hkey
    rcases hf.recorded key hkey with hold | hstaging
    · exact ⟨hi.kept key hold, hi.known key hold⟩
    · exact ⟨(hi.fresh t key hstaging).stored, (hi.fresh t key hstaging).drawn⟩
  refine ⟨?_, ?_, hunique, ?_, ?_⟩
  · intro key hkey
    exact (hf.stored key (hstored key hkey).1).resolve_right (fun h => h.1 hkey)
  · intro key hkey
    exact hf.drawn key (hstored key hkey).2
  · intro u key hu
    by_cases hut : u = t
    · subst hut
      exact hfresh key hu
    · exact hf.fresh hi hut hu
  · intro u
    by_cases hut : u = t
    · subst hut
      exact hsound
    · exact hf.sound hi hut

/-! ## Steps that leave the tables and the files alone -/

@[simp] theorem sessions_put_self : (w.put t session).sessions t = session :=
  if_pos rfl

theorem spares_put (w : World) (t : Nat) (session : Session) : Spares t w (w.put t session) :=
  ⟨fun _ hne => if_neg hne, fun _ _ _ h => h, fun _ _ _ h => h, fun _ _ _ h => h⟩

theorem spares_finish (w : World) (t : Nat) (session : Session) :
    Spares t w (w.finish t session) := by
  refine ⟨fun _ hne => if_neg hne, ?_, ?_, ?_⟩
  · intro u id hne h
    exact Locks.holder_release.2 ⟨h, hne⟩
  · intro u id hne h
    exact SharedLocks.writer_release hne h
  · intro u id hne h
    exact SharedLocks.readers_release hne h

theorem spares_hold (hopen : w.documents.open_to t document_id = true) :
    Spares t w (hold w t document_id session) :=
  ⟨fun _ hne => if_neg hne, fun _ _ hne h => Locks.holder_take_of_open hopen h hne,
    fun _ _ _ h => h, fun _ _ _ h => h⟩

theorem spares_write (hopen : w.preferences.open_to_write t user_id = true) :
    Spares t w { w.put t session with preferences := w.preferences.write t user_id hopen } :=
  ⟨fun _ hne => if_neg hne, fun _ _ _ h => h, fun _ _ hne h => SharedLocks.writer_write hopen hne h,
    fun _ _ _ h => h⟩

theorem spares_read (hopen : w.preferences.open_to_read t user_id = true) :
    Spares t w { w.put t session with preferences := w.preferences.read t user_id hopen } :=
  ⟨fun _ hne => if_neg hne, fun _ _ _ h => h, fun _ _ _ h => h,
    fun _ _ _ h => SharedLocks.readers_read hopen h⟩

theorem Spares.frame (h : Spares t w w') (hdb : w'.db = w.db) (hdrawn : w'.drawn = w.drawn)
    (hstaging : ∀ key, (w'.sessions t).staging = some key → (w.sessions t).staging = some key) :
    Frame t w w' := by
  refine ⟨h, ?_, ?_, ?_, ?_, ?_, ?_, fun key hkey => Or.inl (hstaging key hkey), ?_⟩
  · intro u id _ _
    rw [hdb]
  · intro u id _ _
    rw [hdb]
  · intro u id _ _
    rw [hdb]
  · intro key hkey
    rw [hdb] at hkey
    exact Or.inl hkey
  · intro key hkey
    rw [hdb] at hkey
    exact Or.inl hkey
  · intro key hkey
    rw [hdrawn]
    exact hkey
  · intro key hkey
    rw [hdb]
    exact Or.inl hkey

/-- The file that `t` has staged stays in its hands. -/
theorem Fresh.quiet (h : Fresh w t key) (hspares : Spares t w w') (hdb : w'.db = w.db)
    (hdrawn : w'.drawn = w.drawn) : Fresh w' t key := by
  refine ⟨by rw [hdb]; exact h.stored, by rw [hdrawn]; exact h.drawn, by rw [hdb]; exact h.free, ?_⟩
  intro u hu
  by_cases hut : u = t
  · exact hut
  · rw [hspares.sessions u hut] at hu
    exact h.mine u hu

/-- The rule for a step that reads, locks or releases. -/
theorem Invariant.quiet (hi : Invariant w) (h : Spares t w w') (hdb : w'.db = w.db)
    (hdrawn : w'.drawn = w.drawn)
    (hstaging : ∀ key, (w'.sessions t).staging = some key → (w.sessions t).staging = some key)
    (hsound : Sound w' t (w'.sessions t)) : Invariant w' := by
  refine hi.next (h.frame hdb hdrawn hstaging) ?_ ?_ hsound
  · rw [hdb]
    exact hi.unique
  · intro key hkey
    exact (hi.fresh t key (hstaging key hkey)).quiet h hdb hdrawn

theorem start_keeps (hi : Invariant w) (h : start w t session = some w')
    (hstaging : session.staging = none) (hsound : Sound (w.put t session) t session) :
    Invariant w' := by
  unfold start at h
  split at h
  · cases h
    refine hi.quiet (spares_put w t session) rfl rfl ?_ ?_
    · intro key hkey
      rw [sessions_put_self, hstaging] at hkey
      cases hkey
    · rw [sessions_put_self]
      exact hsound
  · cases h

/-- The end of a transaction, whose session has no more than before. -/
theorem finish_keeps (hi : Invariant w)
    (hstaging : ∀ key, session.staging = some key → (w.sessions t).staging = some key)
    (hsound : Sound (w.finish t session) t session) : Invariant (w.finish t session) := by
  have hself : (w.finish t session).sessions t = session := if_pos rfl
  refine hi.quiet (spares_finish w t session) rfl rfl ?_ ?_
  · rw [hself]
    exact hstaging
  · rw [hself]
    exact hsound

/-- An exception before any file is staged. -/
theorem idle_keeps {answer : Option (Except Error Unit)} (hi : Invariant w) :
    Invariant (w.finish t (.idle answer)) :=
  finish_keeps hi (fun _ hkey => nomatch hkey) trivial

theorem know_keeps (hi : Invariant w) (h : know w t = some w') : Invariant w' := by
  unfold know at h
  split at h
  · rename_i call hsession
    split at h
    · cases h
      refine finish_keeps hi ?_ trivial
      rw [hsession]
      exact fun _ hkey => hkey
    · cases h
      refine hi.quiet (spares_put w t _) rfl rfl ?_ ?_
      · rw [sessions_put_self, hsession]
        exact fun _ hkey => hkey
      · rw [sessions_put_self]
        trivial
  · cases h

theorem lock_keeps (hi : Invariant w) (h : lock w t = some w') : Invariant w' := by
  unfold lock at h
  split at h
  · rename_i actor call hsession
    have hfailed : ∀ error, Invariant (w.finish t (.failed call error)) := by
      intro error
      refine finish_keeps hi ?_ trivial
      rw [hsession]
      exact fun _ hkey => hkey
    dsimp only at h
    split at h
    · split_ifs at h
      · cases h
        exact hfailed _
      · cases h
        refine hi.quiet (spares_put w t _) rfl rfl ?_ ?_
        · rw [sessions_put_self, hsession]
          exact fun _ hkey => hkey
        · rw [sessions_put_self]
          intro row hrow
          cases hrow
    · rename_i row hrow
      split_ifs at h with hopen
      · cases h
        exact hfailed _
      · cases h
        have hself : (w.put t (.locked actor call (some row))).sessions t =
            .locked actor call (some row) := sessions_put_self
        refine hi.quiet (spares_write hopen) rfl rfl ?_ ?_
        · dsimp only
          rw [hself, hsession]
          exact fun _ hkey => hkey
        · dsimp only
          rw [hself]
          intro current hcurrent
          cases hcurrent
          exact ⟨SharedLocks.writer_write_self hopen, (Option.filter_eq_some_iff.1 hrow).1⟩
  · cases h

theorem upsert_keeps (hi : Invariant w) (h : upsert w t = some w') : Invariant w' := by
  unfold upsert at h
  split at h
  · rename_i actor call current hsession
    split_ifs at h with hopen
    cases h
    have hsound := hi.sound t
    rw [hsession] at hsound
    have hself : (w.put t (.upserted actor call current)).sessions t =
        .upserted actor call current := sessions_put_self
    have hwriter := SharedLocks.writer_write_self hopen
    refine hi.quiet (spares_write hopen) rfl rfl ?_ ?_
    · dsimp only
      rw [hself, hsession]
      exact fun _ hkey => hkey
    · dsimp only
      rw [hself]
      exact ⟨hwriter, fun row hrow => ⟨hwriter, (hsound row hrow).2⟩⟩
  · cases h

theorem referenced_iff : referenced db key = true ↔ Signed db key := by
  unfold referenced Signed Shows
  rw [decide_eq_true_eq]
  constructor
  · rintro ⟨document_id, hmem⟩
    obtain ⟨document, hrow, hany⟩ := (Table.mem_select _ _ _).1 hmem
    obtain ⟨line, hline, hkey⟩ := List.any_eq_true.1 hany
    exact ⟨document_id, document, hrow, line, hline, of_decide_eq_true hkey⟩
  · rintro ⟨document_id, document, hrow, line, hline, hkey⟩
    exact ⟨document_id, (Table.mem_select _ _ _).2
      ⟨document, hrow, List.any_eq_true.2 ⟨line, hline, decide_eq_true hkey⟩⟩⟩

theorem garbage_unreferenced (h : garbage db call current = some key) :
    Unreferenced db call current key := by
  unfold garbage at h
  obtain ⟨hold, hcheck⟩ := Option.filter_eq_some_iff.1 h
  rw [Bool.and_eq_true, decide_eq_true_eq, Bool.not_eq_true'] at hcheck
  refine ⟨hold, hcheck.1, ?_⟩
  intro hsigned
  rw [referenced_iff.2 hsigned] at hcheck
  cases hcheck.2

theorem check_keeps (hi : Invariant w) (h : check w t = some w') : Invariant w' := by
  unfold check at h
  split at h
  · rename_i actor call current hsession
    cases h
    have hsound := hi.sound t
    rw [hsession] at hsound
    refine hi.quiet (spares_put w t _) rfl rfl ?_ ?_
    · rw [sessions_put_self, hsession]
      exact fun _ hkey => hkey
    · rw [sessions_put_self]
      exact ⟨hsound.1, hsound.2, fun _ hkey => garbage_unreferenced hkey⟩
  · cases h

theorem abort_keeps {error : Error} (hi : Invariant w) (h : abort w t error = some w') :
    Invariant w' := by
  unfold abort at h
  split at h
  case h_12 => cases h
  all_goals
    rename_i hsession
    cases h
    first
    | exact idle_keeps hi
    | refine finish_keeps hi ?_ trivial
      rw [hsession]
      exact fun _ hkey => hkey

/-- The session goes on with the lock of the document that it has read. -/
theorem hold_keeps (hi : Invariant w) (hopen : ¬ w.documents.open_to t document_id = false)
    (hstaging : session.staging = none) (hsound : Sound (hold w t document_id session) t session) :
    Invariant (hold w t document_id session) := by
  have hself : (hold w t document_id session).sessions t = session := if_pos rfl
  refine hi.quiet (spares_hold (eq_true_of_ne_false hopen)) rfl rfl ?_ ?_
  · intro key hkey
    rw [hself, hstaging] at hkey
    cases hkey
  · rw [hself]
    exact hsound

theorem holds_hold (h : approvals._fetch_required_approval_document w.db document_id = .ok document) :
    Holds (hold w t document_id session) t document_id document :=
  ⟨Locks.holder_take_self _ _ _, (approvals.fetch_required_ok.1 h).1⟩

theorem opened_ok {call : Decide} (h : opened db call = .ok (actor, document)) :
    approvals._fetch_required_approval_document db call.document_id = .ok document := by
  unfold opened at h
  obtain ⟨_, _, h⟩ := bind_ok.1 h
  obtain ⟨_, _, h⟩ := bind_ok.1 h
  obtain ⟨_, hdocument, h⟩ := bind_ok.1 h
  obtain ⟨_, _, h⟩ := bind_ok.1 h
  obtain ⟨_, _, h⟩ := bind_ok.1 h
  cases h
  exact hdocument

theorem forced_shows {call : Decide} {after : Document}
    (h : forced_document call actor document = .ok after) (hshows : Shows after key) :
    Shows document key := by
  unfold forced_document at h
  obtain ⟨_, _, h⟩ := bind_ok.1 h
  cases h
  split_ifs at hshows
  · exact shows_force_approved hshows
  · exact shows_force_rejected hshows

theorem judge_keeps (hi : Invariant w) (h : judge w t = some w') : Invariant w' := by
  unfold judge at h
  split at h
  · rename_i call _
    by_cases hopen : w.documents.open_to t call.document_id = false
    · rw [if_pos hopen] at h
      cases h
    rw [if_neg hopen] at h
    split at h
    · cases h
      exact idle_keeps hi
    · rename_i actor document hopened
      have hdocument := opened_ok hopened
      by_cases hforced : call.forced = true
      · rw [if_pos hforced] at h
        split at h
        · cases h
          exact idle_keeps hi
        · rename_i after hafter
          cases h
          exact hold_keeps hi hopen rfl
            ⟨document, holds_hold hdocument, fun _ hkey => Or.inl (forced_shows hafter hkey)⟩
      · rw [if_neg hforced] at h
        split at h
        · cases h
          exact idle_keeps hi
        · split_ifs at h with haccepted
          · cases h
            exact hold_keeps hi hopen rfl (holds_hold hdocument)
          · cases h
            exact hold_keeps hi hopen rfl
              ⟨document, holds_hold hdocument, fun _ hkey => Or.inl (shows_line_rejected hkey)⟩
  · cases h

theorem sign_keeps (hi : Invariant w) (h : sign w t = some w') : Invariant w' := by
  unfold sign at h
  split at h
  · rename_i actor call document target delegation_id hsession
    have hsound := hi.sound t
    rw [hsession] at hsound
    split at h
    · cases h
      refine hi.quiet (spares_put w t _) rfl rfl ?_ ?_
      · rw [sessions_put_self]
        exact fun _ hkey => nomatch hkey
      · rw [sessions_put_self]
        exact ⟨hsound, fun _ hkey => nomatch hkey⟩
    · rename_i row hrow
      split_ifs at h with hopen
      cases h
      have hself : (w.put t (.signed actor call document target delegation_id row.signature)).sessions
          t = .signed actor call document target delegation_id row.signature := sessions_put_self
      refine hi.quiet (spares_read hopen) rfl rfl ?_ ?_
      · dsimp only
        rw [hself]
        exact fun _ hkey => nomatch hkey
      · dsimp only
        rw [hself]
        refine ⟨hsound, fun key hkey => ⟨actor.userId, ?_, row, ?_, hkey⟩⟩
        · exact SharedLocks.readers_read_self hopen
        · exact (Option.filter_eq_some_iff.1 hrow).1
  · cases h

theorem draw_keeps (hi : Invariant w) (h : draw w t = some w') : Invariant w' := by
  unfold draw at h
  split at h
  · rename_i actor call document target delegation_id snapshot hsession
    cases h
    have hsound := hi.sound t
    rw [hsession] at hsound
    refine hi.quiet (spares_put w t _) rfl rfl ?_ ?_
    · rw [sessions_put_self]
      exact fun _ hkey => nomatch hkey
    · rw [sessions_put_self]
      exact ⟨document, hsound.1, fun key hkey => (shows_line_approved hkey).imp id (hsound.2 key)⟩
  · cases h

theorem redraft_keeps (hi : Invariant w) (h : redraft w t = some w') : Invariant w' := by
  unfold redraft at h
  split at h
  · split_ifs at h with hopen
    split at h
    · cases h
      exact idle_keeps hi
    · rename_i document hdocument
      cases h
      unfold redraftable at hdocument
      obtain ⟨_, _, hdocument⟩ := bind_ok.1 hdocument
      obtain ⟨_, hrow, hdocument⟩ := bind_ok.1 hdocument
      obtain ⟨_, _, hdocument⟩ := bind_ok.1 hdocument
      obtain ⟨_, _, hdocument⟩ := bind_ok.1 hdocument
      cases hdocument
      exact hold_keeps hi hopen rfl
        ⟨document, holds_hold hrow, fun _ hkey => absurd hkey shows_redrafted⟩
  · cases h

/-! ## Steps on files -/

theorem stage_keeps (hi : Invariant w) (h : stage w t = some w') : Invariant w' := by
  unfold stage at h
  split at h
  · rename_i call _
    have hself : (w.put t (.staged call)).sessions t = .staged call := sessions_put_self
    split at h
    · rename_i hnone
      cases h
      refine hi.quiet (spares_put w t _) rfl rfl ?_ ?_
      · intro key hkey
        rw [hself] at hkey
        exact absurd (hnone.symm.trans hkey) nofun
      · rw [hself]
        trivial
    · rename_i key hkey
      split_ifs at h with hdrawn
      cases h
      have hnew : w.drawn key = false := eq_false_of_ne_true hdrawn
      have hother : ∀ u, (w.sessions u).staging ≠ some key := by
        intro u hu
        rw [(hi.fresh u key hu).drawn] at hnew
        cases hnew
      refine hi.next ⟨⟨fun _ hne => if_neg hne, fun _ _ _ h => h, fun _ _ _ h => h,
        fun _ _ _ h => h⟩, fun _ _ _ _ => rfl, fun _ _ _ _ => rfl, fun _ _ _ _ => rfl,
        fun _ hsigned => Or.inl hsigned, fun _ hrecorded => Or.inl hrecorded,
        ?_, ?_, ?_⟩ hi.unique ?_ ?_
      · intro other hother
        exact Bool.or_eq_true_iff.2 (Or.inr hother)
      · intro other hstaging
        change ((w.put t (.staged call)).sessions t).staging = some other at hstaging
        rw [hself] at hstaging
        obtain rfl : key = other := Option.some.inj (hkey.symm.trans hstaging)
        exact Or.inr hnew
      · intro other hstored
        dsimp only [World.file]
        split_ifs
        · exact Or.inl rfl
        · exact Or.inl hstored
      · intro other hstaging
        change ((w.put t (.staged call)).sessions t).staging = some other at hstaging
        rw [hself] at hstaging
        obtain rfl : key = other := Option.some.inj (hkey.symm.trans hstaging)
        refine ⟨if_pos rfl, ?_, ?_, ?_⟩
        · exact Bool.or_eq_true_iff.2 (Or.inl (decide_eq_true rfl))
        · intro hrecorded
          exact hdrawn (hi.known key hrecorded)
        · intro u hu
          by_contra hne
          change ((w.put t (.staged call)).sessions u).staging = some key at hu
          rw [(spares_put w t _).sessions u hne] at hu
          exact hother u hu
      · change Sound _ t ((w.put t (.staged call)).sessions t)
        rw [hself]
        trivial
  · cases h

/-- A deletion of a file that nobody refers to and no other session has. -/
theorem delete_keeps {gone : Option String} (hi : Invariant w) (hstaging : session.staging = none)
    (hsound : ∀ w', Sound w' t session) (hfree : ∀ key, gone = some key →
      ¬ Recorded w.db key ∧ ∀ u, u ≠ t → (w.sessions u).staging ≠ some key) :
    Invariant ((w.put t session).file gone false) := by
  have hself : ((w.put t session).file gone false).sessions t = session := sessions_put_self
  have hnone : ∀ key, (((w.put t session).file gone false).sessions t).staging ≠ some key := by
    intro key hkey
    rw [hself, hstaging] at hkey
    cases hkey
  refine hi.next ⟨⟨fun _ hne => if_neg hne, fun _ _ _ h => h, fun _ _ _ h => h,
    fun _ _ _ h => h⟩, fun _ _ _ _ => rfl, fun _ _ _ _ => rfl, fun _ _ _ _ => rfl,
    fun _ hsigned => Or.inl hsigned, fun _ hrecorded => Or.inl hrecorded,
    fun _ hdrawn => hdrawn, fun key hkey => absurd hkey (hnone key), ?_⟩ hi.unique
    (fun key hkey => absurd hkey (hnone key)) ?_
  · intro key hstored
    dsimp only [World.file]
    split_ifs with hgone
    · exact Or.inr (hfree key hgone.symm)
    · exact Or.inl hstored
  · rw [hself]
    exact hsound _

theorem collect_keeps {deleted : Bool} (hi : Invariant w) (h : collect w t deleted = some w') :
    Invariant w' := by
  unfold collect at h
  split at h
  · rename_i garbage hsession
    split_ifs at h
    · cases h
      refine delete_keeps hi rfl (fun _ => trivial) ?_
      intro key hkey
      have hsound := hi.sound t
      rw [hsession] at hsound
      exact ⟨(hsound key hkey).free, fun u _ => (hsound key hkey).unstaged u⟩
    · cases h
      refine hi.quiet (spares_put w t _) rfl rfl ?_ ?_
      · rw [sessions_put_self]
        exact fun _ hkey => nomatch hkey
      · rw [sessions_put_self]
        trivial
  · cases h

theorem discard_keeps (hi : Invariant w) (h : discard w t = some w') : Invariant w' := by
  unfold discard at h
  split at h
  · rename_i call error hsession
    cases h
    refine delete_keeps hi rfl (fun _ => trivial) ?_
    intro key hkey
    have hstaging : (w.sessions t).staging = some key := by
      rw [hsession]
      exact hkey
    have hfresh := hi.fresh t key hstaging
    exact ⟨hfresh.free, fun u hne hu => hne (hfresh.mine u hu)⟩
  · cases h

/-! ## Commits -/

/-- The upsert writes a key that was staged or that the row had. -/
theorem upserted_key (h : (upserted actor call current).signature.storage_key = some key) :
    call.staged = some key ∨ old_storage_key current = some key := by
  change (signature_values call current).storage_key = some key at h
  unfold signature_values at h
  split at h
  · rename_i staged hstaged
    refine Or.inl ?_
    unfold Update.staged
    rw [hstaged]
    exact h
  · split_ifs at h
    · cases h
    · cases current with
      | none => cases h
      | some row => exact Or.inr h

theorem preferred_set {row : Preference} {other : String}
    (h : Preferred { db with preferences := db.preferences.set user_id row } other key) :
    (other = user_id ∧ row.signature.storage_key = some key) ∨
      (other ≠ user_id ∧ Preferred db other key) := by
  obtain ⟨found, hfound, hkey⟩ := h
  dsimp only at hfound
  rw [Table.rows_set] at hfound
  split_ifs at hfound with hid
  · cases hfound
    exact Or.inl ⟨hid, hkey⟩
  · exact Or.inr ⟨hid, found, hfound, hkey⟩

theorem Owns.preferred (h : Owns w t user_id current) (hold : old_storage_key current = some key) :
    Preferred w.db user_id key := by
  obtain ⟨row, rfl, hkey⟩ := Option.bind_eq_some_iff.1 hold
  exact ⟨row, (h row rfl).2, hkey⟩

/-- The commit of an update. -/
theorem prefer_keeps {garbage : Option String} (hi : Invariant w)
    (hsession : w.sessions t = .checked actor call current garbage) :
    Invariant { w.finish t (.committed garbage) with db := { w.db with
      preferences := w.db.preferences.set actor.userId (upserted actor call current) } } := by
  have hsound := hi.sound t
  rw [hsession] at hsound
  obtain ⟨hwriter, howns, hgarbage⟩ := hsound
  have hstaged : ∀ key, call.staged = some key → Fresh w t key := by
    intro key hkey
    refine hi.fresh t key ?_
    rw [hsession]
    exact hkey
  have hspares := spares_finish w t (.committed garbage)
  have hself : (w.finish t (.committed garbage)).sessions t = .committed garbage := if_pos rfl
  have hkept : ∀ u id, u ≠ t → w.preferences.writer id = some u ∨ u ∈ w.preferences.readers id →
      id ≠ actor.userId := by
    rintro u id hne (hu | hu) rfl
    · rw [hwriter] at hu
      exact hne (Option.some.inj hu).symm
    · exact hne (w.preferences.alone actor.userId t u hwriter hu)
  have hpreferred : ∀ other key, Preferred { w.db with
      preferences := w.db.preferences.set actor.userId (upserted actor call current) } other key →
      Recorded w.db key ∨ call.staged = some key := by
    intro other key hother
    rcases preferred_set hother with ⟨_, hnew⟩ | ⟨_, hold⟩
    · exact (upserted_key hnew).symm.imp (fun hold => Or.inl ⟨_, howns.preferred hold⟩) id
    · exact Or.inl (Or.inl ⟨other, hold⟩)
  have hunique : ∀ other key, Preferred w.db other key →
      (upserted actor call current).signature.storage_key = some key → other = actor.userId := by
    intro other key hother hnew
    rcases upserted_key hnew with hstaging | hold
    · exact absurd (Or.inl ⟨other, hother⟩) (hstaged key hstaging).free
    · exact hi.unique other _ key hother (howns.preferred hold)
  have hnostaging : ∀ key, ((w.finish t (.committed garbage)).sessions t).staging ≠ some key := by
    intro key hkey
    rw [hself] at hkey
    cases hkey
  refine hi.next ⟨⟨hspares.sessions, hspares.holder, hspares.writer, hspares.readers⟩,
    fun _ _ _ _ => rfl, ?_, ?_, fun _ hsigned => Or.inl hsigned, ?_, fun _ hdrawn => hdrawn,
    fun key hkey => absurd hkey (hnostaging key), fun _ hstored => Or.inl hstored⟩ ?_
    (fun key hkey => absurd hkey (hnostaging key)) ?_
  · intro u id hne hu
    exact Table.rows_set_ne _ _ (hkept u id hne (Or.inl hu))
  · intro u id hne hu
    exact Table.rows_set_ne _ _ (hkept u id hne (Or.inr hu))
  · rintro key (⟨other, hother⟩ | hsigned)
    · rw [hsession]
      exact hpreferred other key hother
    · exact Or.inl (Or.inr hsigned)
  · intro user_id other key huser hother
    rcases preferred_set huser with ⟨rfl, hnew⟩ | ⟨hne, hold⟩
    · rcases preferred_set hother with ⟨rfl, _⟩ | ⟨_, hold⟩
      · rfl
      · exact (hunique other key hold hnew).symm
    · rcases preferred_set hother with ⟨rfl, hnew⟩ | ⟨_, hold'⟩
      · exact hunique user_id key hold hnew
      · exact hi.unique user_id other key hold hold'
  · change Sound _ t ((w.finish t (.committed garbage)).sessions t)
    rw [hself]
    -- the old key is nowhere any more
    intro key hkey
    have hdead := hgarbage key hkey
    have hold := howns.preferred hdead.old
    have hrecorded : Recorded w.db key := Or.inl ⟨_, hold⟩
    refine ⟨hi.known key hrecorded, ?_, ?_⟩
    · rintro (⟨other, hother⟩ | hsigned)
      · rcases preferred_set hother with ⟨_, hnew⟩ | ⟨hne, hother⟩
        · exact hdead.replaced hnew
        · exact hne (hi.unique other _ key hother hold)
      · exact hdead.unsigned hsigned
    · intro u hu
      by_cases hut : u = t
      · subst hut
        exact hnostaging key hu
      · change ((w.finish t (.committed garbage)).sessions u).staging = some key at hu
        rw [hspares.sessions u hut] at hu
        exact (hi.fresh u key hu).free hrecorded

/-- The commit of a decision or a redraft. -/
theorem drawn_keeps {after : Document} {answer : Option (Except Error Unit)} (hi : Invariant w)
    (hsession : w.sessions t = .drawn document_id after) :
    Invariant { w.finish t (.idle answer) with db := { w.db with
      documents := w.db.documents.set document_id after } } := by
  have hsound := hi.sound t
  rw [hsession] at hsound
  obtain ⟨document, hholds, hshows⟩ := hsound
  have hspares := spares_finish w t (.idle answer)
  have hself : (w.finish t (.idle answer)).sessions t = .idle answer := if_pos rfl
  have hsigned : ∀ key, Signed { w.db with
      documents := w.db.documents.set document_id after } key → Signed w.db key ∨ Reads w t key := by
    intro key hkey
    rcases signed_set rfl hkey with hold | hnew
    · exact Or.inl hold
    · exact (hshows key hnew).imp (fun hold => ⟨document_id, document, hholds.2, hold⟩) id
  have hnostaging : ∀ key, ((w.finish t (.idle answer)).sessions t).staging ≠ some key := by
    intro key hkey
    rw [hself] at hkey
    cases hkey
  refine hi.next ⟨⟨hspares.sessions, hspares.holder, hspares.writer, hspares.readers⟩, ?_,
    fun _ _ _ _ => rfl, fun _ _ _ _ => rfl, hsigned, ?_, fun _ hdrawn => hdrawn,
    fun key hkey => absurd hkey (hnostaging key), fun _ hstored => Or.inl hstored⟩ hi.unique
    (fun key hkey => absurd hkey (hnostaging key)) ?_
  · intro u id hne hu
    refine Table.rows_set_ne _ _ ?_
    rintro rfl
    rw [hholds.1] at hu
    exact hne (Option.some.inj hu).symm
  · rintro key (hpreferred | hkey)
    · exact Or.inl (Or.inl hpreferred)
    · exact Or.inl ((hsigned key hkey).elim Or.inr Reads.recorded)
  · change Sound _ t ((w.finish t (.idle answer)).sessions t)
    rw [hself]
    trivial

theorem commit_keeps (hi : Invariant w) (h : commit w t = some w') : Invariant w' := by
  unfold commit at h
  split at h
  · rename_i hsession
    cases h
    exact prefer_keeps hi hsession
  · rename_i hsession
    cases h
    exact drawn_keeps hi hsession
  · cases h

/-! ## The other operations, again -/

theorem Apart.frame (h : Apart w.db a db)
    (hfree : (documentOf a).all (fun id => decide (w.documents.holder id = none)) = true) (t : Nat) :
    Frame t w { w with db := db } := by
  refine ⟨⟨fun _ _ => rfl, fun _ _ _ h => h, fun _ _ _ h => h, fun _ _ _ h => h⟩, ?_, ?_, ?_,
    fun key hkey => Or.inl (h.signed key hkey), ?_, fun _ hdrawn => hdrawn,
    fun _ hstaging => Or.inl hstaging, fun key hkey => Or.inl (h.stored key hkey)⟩
  · intro u id _ hu
    apply h.documents id
    intro hid
    rw [hid, Option.all_some, decide_eq_true_eq] at hfree
    rw [hfree] at hu
    cases hu
  · intro u id _ _
    dsimp only
    rw [h.preferences]
  · intro u id _ _
    dsimp only
    rw [h.preferences]
  · rintro key (⟨user_id, hpreferred⟩ | hsigned)
    · unfold Preferred at hpreferred
      dsimp only at hpreferred
      rw [h.preferences] at hpreferred
      exact Or.inl (Or.inl ⟨user_id, hpreferred⟩)
    · exact Or.inl (Or.inr (h.signed key hsigned))

theorem operate_keeps (hi : Invariant w) (h : step w (.operate a) = some w') : Invariant w' := by
  dsimp only [step] at h
  split_ifs at h with hok
  obtain ⟨hplain, hfree, _⟩ := hok
  obtain ⟨after, hstep, rfl⟩ := Option.map_eq_some_iff.1 h
  have hapart := operate_apart hplain hstep
  have hf := hapart.frame hfree
  refine hi.next (hf 0) ?_ ?_ ?_
  · unfold Preferred
    rw [hapart.preferences]
    exact hi.unique
  · intro key hkey
    exact (hf 1).fresh hi (by decide) hkey
  · exact (hf 1).sound hi (by decide)

/-! ## Runs -/

theorem step_keeps {a : Action} (hi : Invariant w) (h : step w a = some w') : Invariant w' := by
  cases a with
  | ask t call =>
    dsimp only [step] at h
    split at h
    · exact start_keeps hi h rfl trivial
    · exact start_keeps hi h rfl trivial
  | stage t => exact stage_keeps hi h
  | know t => exact know_keeps hi h
  | lock t => exact lock_keeps hi h
  | upsert t => exact upsert_keeps hi h
  | check t => exact check_keeps hi h
  | collect t deleted => exact collect_keeps hi h
  | discard t => exact discard_keeps hi h
  | decide t call => exact start_keeps hi h rfl trivial
  | judge t => exact judge_keeps hi h
  | sign t => exact sign_keeps hi h
  | draw t => exact draw_keeps hi h
  | rework t actor_id document_id now => exact start_keeps hi h rfl trivial
  | redraft t => exact redraft_keeps hi h
  | commit t => exact commit_keeps hi h
  | abort t error => exact abort_keeps hi h
  | operate a => exact operate_keeps hi h

theorem start_invariant (h : Start w) : Invariant w := by
  refine ⟨h.kept, h.known, h.unique, ?_, ?_⟩
  · intro t key hkey
    obtain ⟨answer, hidle⟩ := h.quiet t
    rw [hidle] at hkey
    cases hkey
  · intro t
    obtain ⟨answer, hidle⟩ := h.quiet t
    rw [hidle]
    trivial

theorem invariant_of_reachable (h : machine.Reachable w) : Invariant w := by
  refine h.invariant ?_ ?_
  · exact fun _ hstart => start_invariant hstart
  · intro s a s' hi hstep
    exact step_keeps hi hstep

/-- In every state of every run, each key that is recorded in preferences or on
a line names a file that is still there. -/
theorem signatures_are_kept (w : World) (h : machine.Reachable w) : Kept w.db :=
  (invariant_of_reachable h).kept

/-! ## A run -/

def quietWorld : World where
  db := approvals.twoCompanies
  drawn := fun _ => false
  documents := Locks.free
  preferences := SharedLocks.free
  sessions := fun _ => .idle none

theorem start_quietWorld : machine.Start quietWorld := by
  have hnone : ∀ key, ¬ Recorded quietWorld.db key := by
    rintro key (⟨user_id, row, hrow, _⟩ | ⟨document_id, document, hrow, _⟩)
    · cases hrow
    · cases hrow
  exact ⟨fun key hkey => absurd hkey (hnone key), fun key hkey => absurd hkey (hnone key),
    fun user_id _ key huser _ => absurd (Or.inl ⟨user_id, huser⟩) (hnone key),
    fun _ => ⟨none, rfl⟩⟩

/-- Bo's signature file. -/
def image (key : String) : Signature := ⟨some key, some "bo.png", some "image/png", some 900⟩

/-- Bo replaces his signature, from the version that he has seen. -/
def replace (key : String) (version : Int) : Update :=
  ⟨"bo", "general", "thumbnail", version, false, some (image key)⟩

/-- Bo signs Ana's document with his first signature while he replaces it: the
update waits for the approval and then keeps the file. -/
def signingRun : Option World := machine.run quietWorld
  [.ask 1 (replace "one" 0), .stage 1, .know 1, .lock 1, .upsert 1, .check 1, .commit 1,
    .collect 1 true,
    .operate (.create "ana" "doc" approvals.sampleIds (approvals.plainPayload ["bo"]) 1),
    .operate (.submit "ana" "doc" 2),
    .ask 2 (replace "two" 1), .stage 2, .know 2,
    .decide 3 ⟨"bo", "doc", "fine", true, false, 3, 3⟩, .judge 3, .sign 3, .draw 3, .commit 3,
    .lock 2, .upsert 2, .check 2, .commit 2, .collect 2 true]

theorem the_replaced_signature_is_kept : Kept (signingRun.get (by decide +kernel)).db :=
  signatures_are_kept _ (Machine.reachable_of_run start_quietWorld (Option.some_get _).symm)

/-- The line still names the first file, and Bo's preferences name the second. -/
example : ["one", "two"].map (signingRun.get (by decide)).db.stored = [true, true] := by
  decide

end moaworks.approval_signatures
