-- Transactions that run statement by statement, with the row locks of SELECT … FOR UPDATE, and a
-- rule that proves an invariant of the committed states from what each of them does alone.
import Mathlib.Data.Set.Lattice
import Mathlib.Order.CompletePartialOrder
import MoaWorks.Lib.Locks
import MoaWorks.Lib.Machine

/-- What is left of a transaction over the states `σ`, with locks on the keys `κ`, that ends with a
result or is aborted by an exception. -/
inductive Tx (σ κ α : Type)
  | done (a : α)
  | abort
  /-- A locking read of one row, which waits until no other transaction holds it. -/
  | lock (k : κ) (next : σ → Tx σ κ α)
  /-- A statement that reads without a lock. -/
  | read (next : σ → Tx σ κ α)

/-- What a transaction commits: its writes, or `none` when a constraint refuses them. The others
see them from then on. The label says what they are. -/
structure Commit (σ β : Type) where
  label : β
  write : σ → Option σ

namespace Tx

variable {σ κ α β : Type}

def bind : Tx σ κ α → (α → Tx σ κ β) → Tx σ κ β
  | done a, f => f a
  | abort, _ => abort
  | lock k next, f => lock k (fun s => (next s).bind f)
  | read next, f => read (fun s => (next s).bind f)

instance : Monad (Tx σ κ) where
  pure := done
  bind := Tx.bind

/-- `if not c: raise`. -/
def require (c : Prop) [Decidable c] : Tx σ κ Unit := if c then done () else abort

/-- `if row is None: raise`. -/
def found : Option α → Tx σ κ α
  | none => abort
  | some a => done a

/-- `SELECT …`. -/
def select (f : σ → α) : Tx σ κ α := read (fun s => done (f s))

/-- `SELECT … FOR UPDATE`, of the row of a key. -/
def selectForUpdate (k : κ) (f : σ → α) : Tx σ κ α := lock k (fun s => done (f s))

/-- Locking reads of the rows of a list, one after another. What comes out are the rows that `keep`
still finds when their lock is there. -/
def lockEach {ρ : Type} (key : ρ → κ) (keep : σ → ρ → Bool) : List ρ → Tx σ κ (List ρ)
  | [] => pure []
  | r :: rs => do
    let kept ← selectForUpdate (key r) (fun s => keep s r)
    let locked ← lockEach key keep rs
    pure (if kept then r :: locked else locked)

end Tx

/-- What the transactions keep: an invariant of the committed states, and what the others leave
alone as long as the keys of a set are locked. -/
structure Discipline (σ κ β : Type) where
  Inv : σ → Prop
  Rely : Set κ → σ → σ → Prop
  /-- What a commit may count on besides, of the state and of the keys that the others hold. -/
  Good : β → σ → Set κ → Prop
  refl : ∀ held s, Rely held s s
  trans : ∀ held s s' s'', Rely held s s' → Rely held s' s'' → Rely held s s''
  anti : ∀ held more s s', held ⊆ more → Rely more s s' → Rely held s s'

namespace Discipline

variable {σ κ α β γ : Type} (d : Discipline σ κ β)

/-- Whatever the others do between the statements, the result, the keys that are held and the state
at the end meet `Q`. -/
def Meets (Q : γ → Set κ → σ → Prop) : Tx σ κ γ → Set κ → σ → Prop
  | .done a, held, s => Q a held s
  | .abort, _, _ => True
  | .lock k next, held, s => ∀ s', d.Rely held s s' → d.Inv s' →
    Meets Q (next s') (insert k held) s'
  | .read next, held, s => ∀ s', d.Rely held s s' → d.Inv s' → Meets Q (next s') held s'

/-- A commit that keeps the invariant, and leaves alone what the others rely on. -/
def Commits (c : Commit σ β) (held : Set κ) (s : σ) : Prop :=
  ∀ s', d.Rely held s s' → d.Inv s' → ∀ s'' others, Disjoint held others →
    d.Good c.label s' others → c.write s' = some s'' → d.Inv s'' ∧ d.Rely others s' s''

/-- The transaction ends with such a commit, or with none. -/
def Safe (tx : Tx σ κ (Commit σ β)) (held : Set κ) (s : σ) : Prop := d.Meets d.Commits tx held s

variable {d} {Q Q' : γ → Set κ → σ → Prop}

theorem meets_bind {tx : Tx σ κ α} {f : α → Tx σ κ γ} {held : Set κ} {s : σ} :
    d.Meets Q (tx >>= f) held s ↔ d.Meets (fun a held s => d.Meets Q (f a) held s) tx held s := by
  change d.Meets Q (tx.bind f) held s ↔ _
  induction tx generalizing held s with
  | done a => rfl
  | abort => rfl
  | lock k next ih => exact forall_congr' fun s' => forall₂_congr fun _ _ => ih s'
  | read next ih => exact forall_congr' fun s' => forall₂_congr fun _ _ => ih s'

theorem meets_require {c : Prop} [Decidable c] {Q : Unit → Set κ → σ → Prop} {held : Set κ} {s : σ}
    (h : c → Q () held s) : d.Meets Q (Tx.require c) held s := by
  unfold Tx.require
  split_ifs with hc
  · exact h hc
  · trivial

theorem meets_found {row : Option γ} {held : Set κ} {s : σ}
    (h : ∀ r, row = some r → Q r held s) : d.Meets Q (Tx.found row) held s := by
  cases row with
  | none => trivial
  | some r => exact h r rfl

theorem meets_select {f : σ → γ} {held : Set κ} {s : σ}
    (h : ∀ s', d.Rely held s s' → d.Inv s' → Q (f s') held s') :
    d.Meets Q (Tx.select f) held s := h

theorem meets_selectForUpdate {k : κ} {f : σ → γ} {held : Set κ} {s : σ}
    (h : ∀ s', d.Rely held s s' → d.Inv s' → Q (f s') (insert k held) s') :
    d.Meets Q (Tx.selectForUpdate k f) held s := h

/-- The rule for locking reads of a list of rows: a row that is there when the list is read stays as
it is once its lock is held, so the rows that come out are those that are found at the end. -/
theorem meets_lockEach {ρ : Type} {key : ρ → κ} {keep : σ → ρ → Bool} (here : σ → ρ → Prop)
    (hhere : ∀ held s s' r, d.Rely held s s' → here s r → here s' r)
    (hstable : ∀ held s s' r, d.Rely held s s' → key r ∈ held → here s r → keep s' r = keep s r) :
    ∀ (rows : List ρ) {Q : List ρ → Set κ → σ → Prop} {held : Set κ} {s : σ}, d.Inv s →
      (∀ r ∈ rows, here s r) →
      (∀ s' held', held ⊆ held' → (∀ r ∈ rows, key r ∈ held') → d.Rely held s s' → d.Inv s' →
        Q (rows.filter (keep s')) held' s') →
      d.Meets Q (Tx.lockEach key keep rows) held s
  | [], Q, held, s, hinv, _, h =>
    h s held (le_refl _) (fun _ hr => absurd hr List.not_mem_nil) (d.refl _ _) hinv
  | r :: rs, Q, held, s, _, hrows, h => by
    refine meets_bind.2 (meets_selectForUpdate fun s' hrely hinv => meets_bind.2 ?_)
    refine meets_lockEach here hhere hstable rs hinv
      (fun r' hr' => hhere _ _ _ _ hrely (hrows r' (List.mem_cons_of_mem _ hr'))) ?_
    intro s'' held' hsub hkeys hrely' hinv'
    have hkey : key r ∈ held' := hsub (Set.mem_insert _ _)
    have hfilter : (if keep s' r then r :: rs.filter (keep s'') else rs.filter (keep s'')) =
        (r :: rs).filter (keep s'') := by
      rw [← hstable _ _ _ r hrely' (Set.mem_insert _ _)
        (hhere _ _ _ _ hrely (hrows r List.mem_cons_self)), List.filter_cons]
    change Q (if keep s' r then r :: rs.filter (keep s'') else rs.filter (keep s'')) held' s''
    rw [hfilter]
    refine h s'' held' ((Set.subset_insert _ _).trans hsub) ?_
      (d.trans _ _ _ _ hrely (d.anti _ _ _ _ (Set.subset_insert _ _) hrely')) hinv'
    intro r' hr'
    rcases List.mem_cons.1 hr' with rfl | hr'
    · exact hkey
    · exact hkeys r' hr'

/-- What comes out of locking reads of a list is from the list, whatever happens to the rows. -/
theorem meets_lockEach_sub {ρ : Type} {key : ρ → κ} {keep : σ → ρ → Bool} :
    ∀ (rows : List ρ) {Q : List ρ → Set κ → σ → Prop} {held : Set κ} {s : σ}, d.Inv s →
      (∀ out s' held', held ⊆ held' → out ⊆ rows → d.Rely held s s' → d.Inv s' → Q out held' s') →
      d.Meets Q (Tx.lockEach key keep rows) held s
  | [], Q, held, s, hinv, h => h [] s held (le_refl _) (List.Subset.refl _) (d.refl _ _) hinv
  | r :: rs, Q, held, s, _, h => by
    refine meets_bind.2 (meets_selectForUpdate fun s' hrely hinv => meets_bind.2 ?_)
    refine meets_lockEach_sub rs hinv fun out s'' held' hsub hout hrely' hinv' => ?_
    refine h _ s'' held' ((Set.subset_insert _ _).trans hsub) ?_
      (d.trans _ _ _ _ hrely (d.anti _ _ _ _ (Set.subset_insert _ _) hrely')) hinv'
    split_ifs
    · exact List.cons_subset_cons r hout
    · exact fun x hx => List.mem_cons_of_mem r (hout hx)

theorem Safe.later {tx : Tx σ κ (Commit σ β)} {held : Set κ} {s s' : σ} (h : d.Safe tx held s)
    (hs : d.Rely held s s') : d.Safe tx held s' := by
  cases tx with
  | done c => exact fun s'' hs' => h s'' (d.trans _ _ _ _ hs hs')
  | abort => trivial
  | lock k next => exact fun s'' hs' => h s'' (d.trans _ _ _ _ hs hs')
  | read next => exact fun s'' hs' => h s'' (d.trans _ _ _ _ hs hs')

end Discipline

/-! ## Transactions side by side -/

/-- A database: its first states, and the transactions that its calls begin. -/
structure Database (σ κ β ι : Type) where
  Start : σ → Prop
  begins : ι → σ → Option (Tx σ κ (Commit σ β))

namespace Database

variable {σ κ β ι : Type}

structure World (σ κ β : Type) where
  db : σ
  locks : Locks κ Nat
  txs : Nat → Option (Tx σ κ (Commit σ β))

/-- The end of a transaction, whose locks are free again. -/
def World.finish (w : World σ κ β) (t : Nat) (db : σ) : World σ κ β :=
  ⟨db, w.locks.release t, fun u => if u = t then none else w.txs u⟩

def World.put (w : World σ κ β) (t : Nat) (tx : Tx σ κ (Commit σ β)) : World σ κ β :=
  { w with txs := fun u => if u = t then some tx else w.txs u }

/-- A transaction begins, runs its next statement, or is rolled back: by a crash, by an error, or
by the database that has found a deadlock. -/
inductive Event (ι : Type)
  | begin (t : Nat) (call : ι)
  | go (t : Nat)
  | rollback (t : Nat)

variable [DecidableEq κ] (database : Database σ κ β ι)

def step (w : World σ κ β) : Event ι → Option (World σ κ β)
  | .begin t call => match w.txs t with
    | none => (database.begins call w.db).map (w.put t)
    | some _ => none
  | .go t => match w.txs t with
    | none => none
    | some .abort => some (w.finish t w.db)
    | some (.done c) => some (w.finish t ((c.write w.db).getD w.db))
    | some (.lock k next) => if w.locks.open_to t k then
        some ({ w with locks := w.locks.take t k }.put t (next w.db))
      else none
    | some (.read next) => some (w.put t (next w.db))
  | .rollback t => match w.txs t with
    | none => none
    | some _ => some (w.finish t w.db)

def machine : Machine (World σ κ β) (Event ι) where
  Start := fun w => database.Start w.db ∧ w.locks = Locks.free ∧ ∀ t, w.txs t = none
  step := database.step

/-- The keys that a transaction holds, and those that the others hold. -/
def World.held (w : World σ κ β) (t : Nat) : Set κ := {k | w.locks.holder k = some t}

def World.others (w : World σ κ β) (t : Nat) : Set κ :=
  {k | ∃ u, w.locks.holder k = some u ∧ u ≠ t}

/-- The commits of a run are good ones. -/
def Within (d : Discipline σ κ β) (w : World σ κ β) : Event ι → Prop
  | .go t => match w.txs t with
    | some (.done c) => d.Good c.label w.db (w.others t)
    | _ => True
  | _ => True

omit [DecidableEq κ] in
/-- A discipline whose commits count on nothing more. -/
theorem within_of_good {d : Discipline σ κ β} (h : ∀ label s others, d.Good label s others)
    (w : World σ κ β) (e : Event ι) : Within d w e := by
  cases e with
  | begin t call => trivial
  | rollback t => trivial
  | go t =>
    simp only [Within]
    split
    · exact h _ _ _
    · trivial

/-- What holds in each state of a run. -/
structure Kept (d : Discipline σ κ β) (w : World σ κ β) : Prop where
  inv : d.Inv w.db
  safe : ∀ t tx, w.txs t = some tx → d.Safe tx (w.held t) w.db
  idle : ∀ t, w.txs t = none → w.held t = ∅

variable {d : Discipline σ κ β}

omit [DecidableEq κ] in
theorem held_subset_others {w : World σ κ β} {t u : Nat} (h : u ≠ t) : w.held u ⊆ w.others t :=
  fun _ hk => ⟨u, hk, h⟩

omit [DecidableEq κ] in
theorem disjoint_held_others (w : World σ κ β) (t : Nat) : Disjoint (w.held t) (w.others t) := by
  rw [Set.disjoint_left]
  rintro k hk ⟨u, hu, hne⟩
  exact hne (Option.some.inj (hu.symm.trans hk))

omit [DecidableEq κ] in
theorem held_finish_self (w : World σ κ β) (t : Nat) (db : σ) : (w.finish t db).held t = ∅ := by
  refine Set.eq_empty_of_forall_notMem fun k hk => ?_
  exact (Locks.holder_release.1 hk).2 rfl

omit [DecidableEq κ] in
theorem held_finish_ne (w : World σ κ β) {t u : Nat} (db : σ) (h : u ≠ t) :
    (w.finish t db).held u = w.held u := by
  ext k
  exact Locks.holder_release.trans (and_iff_left h)

omit [DecidableEq κ] in
/-- A transaction has ended, in a state that the others allow for. -/
theorem Kept.finish {w : World σ κ β} (h : Kept d w) (t : Nat) {db : σ} (hinv : d.Inv db)
    (hrely : d.Rely (w.others t) w.db db) : Kept d (w.finish t db) where
  inv := hinv
  safe := by
    intro u tx hu
    by_cases hne : u = t
    · simp [World.finish, hne] at hu
    · simp only [World.finish, if_neg hne] at hu
      rw [held_finish_ne w db hne]
      exact (h.safe u tx hu).later (d.anti _ _ _ _ (held_subset_others hne) hrely)
  idle := by
    intro u hu
    by_cases hne : u = t
    · rw [hne]
      exact held_finish_self w t db
    · simp only [World.finish, if_neg hne] at hu
      rw [held_finish_ne w db hne]
      exact h.idle u hu

omit [DecidableEq κ] in
theorem Kept.put {w : World σ κ β} (h : Kept d w) (t : Nat) {tx : Tx σ κ (Commit σ β)}
    (htx : d.Safe tx (w.held t) w.db) : Kept d (w.put t tx) where
  inv := h.inv
  safe := by
    intro u tx' hu
    by_cases hne : u = t
    · simp only [World.put, hne, if_true, Option.some.injEq] at hu
      rw [hne, ← hu]
      exact htx
    · simp only [World.put, if_neg hne] at hu
      exact h.safe u tx' hu
  idle := by
    intro u hu
    by_cases hne : u = t
    · simp [World.put, hne] at hu
    · simp only [World.put, if_neg hne] at hu
      exact h.idle u hu

theorem held_take_self {w : World σ κ β} {t : Nat} {k : κ} :
    ({ w with locks := w.locks.take t k } : World σ κ β).held t = insert k (w.held t) := by
  ext j
  by_cases hj : j = k
  · simp [World.held, hj]
  · simp [World.held, Locks.holder_take_ne _ _ hj, hj]

theorem held_take_ne {w : World σ κ β} {t u : Nat} {k : κ} (hopen : w.locks.open_to t k = true)
    (hne : u ≠ t) : ({ w with locks := w.locks.take t k } : World σ κ β).held u = w.held u := by
  ext j
  constructor
  · intro hj
    by_cases hk : j = k
    · subst hk
      exact absurd (Option.some.inj ((Locks.holder_take_self ..).symm.trans hj)).symm hne
    · exact (Locks.holder_take_ne _ _ hk).symm.trans hj
  · intro hj
    exact Locks.holder_take_of_open hopen hj hne

/-- A transaction has locked a row, and goes on with what it read there. -/
theorem Kept.take {w : World σ κ β} (h : Kept d w) {t : Nat} {k : κ}
    (hopen : w.locks.open_to t k = true) {tx : Tx σ κ (Commit σ β)}
    (htx : d.Safe tx (insert k (w.held t)) w.db) :
    Kept d ({ w with locks := w.locks.take t k }.put t tx) where
  inv := h.inv
  safe := by
    intro u tx' hu
    by_cases hne : u = t
    · simp only [World.put, hne, if_true, Option.some.injEq] at hu
      rw [hne, ← hu]
      exact held_take_self (w := w) ▸ htx
    · simp only [World.put, if_neg hne] at hu
      exact held_take_ne hopen hne ▸ h.safe u tx' hu
  idle := by
    intro u hu
    by_cases hne : u = t
    · simp [World.put, hne] at hu
    · simp only [World.put, if_neg hne] at hu
      exact (held_take_ne hopen hne).trans (h.idle u hu)

/-- The rule: when each call begins a safe transaction, the invariant holds in every run whose
commits are good. -/
theorem kept_of_reach
    (hstart : ∀ s, database.Start s → d.Inv s)
    (hcalls : ∀ call s tx, d.Inv s → database.begins call s = some tx → d.Safe tx ∅ s)
    {w : World σ κ β} (h : database.machine.Reach (Within d) w) : Kept d w := by
  refine h.invariant (I := Kept d) ?_ ?_
  · rintro w ⟨hdb, hlocks, htxs⟩
    refine ⟨hstart _ hdb, fun t tx ht => ?_, fun t _ => ?_⟩
    · rw [htxs t] at ht
      cases ht
    · refine Set.eq_empty_of_forall_notMem fun k hk => ?_
      rw [World.held, hlocks] at hk
      cases hk
  · intro w e w' _ hkept hok hstep
    cases e with
    | begin t call =>
      simp only [machine, step] at hstep
      split at hstep
      · rename_i hidle
        obtain ⟨tx, htx, rfl⟩ := Option.map_eq_some_iff.1 hstep
        refine hkept.put t ?_
        rw [hkept.idle t hidle]
        exact hcalls call w.db tx hkept.inv htx
      · cases hstep
    | rollback t =>
      simp only [machine, step] at hstep
      split at hstep <;> cases hstep
      exact hkept.finish t hkept.inv (d.refl _ _)
    | go t =>
      simp only [machine, step] at hstep
      split at hstep
      case h_1 => cases hstep
      case h_2 =>
        cases hstep
        exact hkept.finish t hkept.inv (d.refl _ _)
      case h_3 c htx =>
        cases hstep
        simp only [Within, htx] at hok
        cases hf : c.write w.db with
        | none => exact hkept.finish t hkept.inv (d.refl _ _)
        | some db =>
          obtain ⟨hinv, hrely⟩ := hkept.safe t _ htx w.db (d.refl _ _) hkept.inv db _
            (disjoint_held_others w t) hok hf
          exact hkept.finish t hinv hrely
      case h_4 k next htx =>
        split_ifs at hstep with hopen
        cases hstep
        exact hkept.take hopen (hkept.safe t _ htx w.db (d.refl _ _) hkept.inv)
      case h_5 next htx =>
        cases hstep
        exact hkept.put t (hkept.safe t _ htx w.db (d.refl _ _) hkept.inv)

end Database
