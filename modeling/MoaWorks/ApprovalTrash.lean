-- The trash of the approvals: what brings a permanently deleted document back.
import MoaWorks.ApprovalOutcomes

namespace moaworks.approvals

open approval_delegations (_seoul_today)
open directory_store (AuthUserSummary Directory Error)

variable {db db' : Db} {w w' : World} {actor_id document_id user_id : String} {now time : Time}
  {deletions deletions' : Table (String × String) Deletion} {key k : String × String}
  {state : TrashState}

/-! ## One row -/

theorem set_deletion_other (h : set_deletion deletions key state now = .ok deletions') (hne : k ≠ key) :
    deletions'.rows k = deletions.rows k := by
  unfold set_deletion at h
  split at h
  · cases h
    exact Table.rows_set_ne _ _ hne
  · cases h
    rw [Table.rows_filter]
    cases deletions.rows k with
    | none => rfl
    | some row => simp [hne]
  · split at h
    · cases h
    · cases h
      exact Table.rows_set_ne _ _ hne

/-- A permanently deleted row: a deletion clears it, a restoration leaves it,
and it cannot be deleted permanently again. -/
theorem set_deletion_permanent {row : Deletion} (hrow : deletions.rows key = some row)
    (hpermanent : row.permanently_deleted_at = some time)
    (h : set_deletion deletions key state now = .ok deletions') :
    state = .deleted ∧ deletions'.rows key = some ⟨now, none⟩ ∨
      state = .restored ∧ deletions'.rows key = some row := by
  cases state with
  | deleted =>
    cases h
    exact Or.inl ⟨rfl, Table.rows_set_self _ _ _⟩
  | restored =>
    cases h
    refine Or.inr ⟨rfl, ?_⟩
    rw [Table.rows_filter, hrow]
    simp [hpermanent]
  | permanently_deleted =>
    have hnone : (deletions.rows key).filter (fun row =>
        decide (row.permanently_deleted_at = none)) = none := by
      rw [hrow, Option.filter_some, hpermanent]
      rfl
    unfold set_deletion at h
    dsimp only at h
    rw [hnone] at h
    cases h

/-- The user has deleted the document permanently, at a time. -/
def PermanentAt (db : Db) (document_id user_id : String) (time : Time) : Prop :=
  ∃ row, db.deletions.rows (document_id, user_id) = some row ∧
    row.permanently_deleted_at = some time

/-- The user finds the document in no list and cannot open it. -/
def Hidden (db : Db) (document_id user_id : String) : Prop :=
  ∀ started,
    (∀ responses, list_approval_documents db user_id started = .ok responses →
      ∀ response ∈ responses, response.id ≠ document_id) ∧
    ∀ response, get_approval_document db user_id document_id started ≠ .ok response

theorem PermanentAt.hidden (h : PermanentAt db document_id user_id time) :
    Hidden db document_id user_id := by
  intro started
  have hget : ∀ response, get_approval_document db user_id document_id started ≠ .ok response := by
    intro response hok
    obtain ⟨actor, document, hactor, _, hvisible, _⟩ := get_ok_iff.1 hok
    obtain ⟨row, hrow, hpermanent⟩ := h
    have hkept := (assert_visible_ok.1 hvisible).2.1
    rw [(Directory.fetch_actor_summary_ok hactor).1, hrow, Option.bind_some, hpermanent] at hkept
    cases hkept
  refine ⟨?_, hget⟩
  intro responses hlist response hmem hid
  obtain ⟨response', hok⟩ := listed_iff_opened.1 ⟨responses, hlist, response, hmem, hid⟩
  exact hget response' hok

/-! ## Runs -/

/-- The action is no new deletion of the document by the user. -/
def Spares (document_id user_id : String) (a : Action) : Prop :=
  ∀ now, a ≠ .trash user_id document_id .deleted now

theorem permanentAt_step {a : Action} (h : PermanentAt w.db document_id user_id time)
    (hstep : step w a = some w') :
    PermanentAt w'.db document_id user_id time ↔ Spares document_id user_id a := by
  obtain ⟨row, hrow, hpermanent⟩ := h
  have hkept : w'.db.deletions = w.db.deletions → PermanentAt w'.db document_id user_id time := by
    intro hsame
    refine ⟨row, ?_, hpermanent⟩
    rw [hsame]
    exact hrow
  cases a with
  | trash actor_id other state now' =>
    obtain ⟨db', hok, rfl⟩ := commit_eq_some hstep
    obtain ⟨actor, _, hactor, _, _, hdeletions, _⟩ := trash_ok hok
    rw [(Directory.fetch_actor_summary_ok hactor).1] at hdeletions
    by_cases hkey : (document_id, user_id) = (other, actor_id)
    · cases hkey
      rcases set_deletion_permanent hrow hpermanent hdeletions with ⟨rfl, hnew⟩ | ⟨rfl, hsame⟩
      · constructor
        · rintro ⟨row', hrow', hpermanent'⟩
          dsimp only at hrow'
          rw [hnew] at hrow'
          cases hrow'
          cases hpermanent'
        · intro hspares
          exact absurd rfl (hspares now')
      · constructor
        · intro _ _ heq
          cases heq
        · intro _
          exact ⟨row, hsame, hpermanent⟩
    · constructor
      · intro _ _ heq
        cases heq
        exact hkey rfl
      · intro _
        exact ⟨row, (set_deletion_other hdeletions hkey).trans hrow, hpermanent⟩
  | create | update | submit | decide | withdraw | rework | read | stage | delegate | prefer
  | administer =>
    constructor
    · intro _ _ heq
      cases heq
    · intro _
      apply hkept
      cases step_does hstep with
      | creates _ _ _ _ _ _ _ _ _ _ hwritten _ => exact hwritten.deletions
      | writes _ _ _ _ _ _ _ hwritten _ => exact hwritten.deletions
      | submits _ _ _ _ _ _ _ hwritten _ => exact hwritten.deletions
      | decides _ _ _ _ _ _ _ _ _ _ _ _ hwritten _ => exact hwritten.deletions
      | trashes _ _ _ _ ha => cases ha
      | delegates _ _ _ hw => rw [hw]
      | administers _ _ _ hw => rw [hw]
      | others halike _ => exact halike.deletions

/-- What a successful permanent deletion writes. -/
theorem permanentAt_of_step
    (h : step w (.trash user_id document_id .permanently_deleted now) = some w') :
    PermanentAt w'.db document_id user_id now := by
  obtain ⟨db', hok, rfl⟩ := commit_eq_some h
  obtain ⟨actor, _, hactor, _, _, hdeletions, _⟩ := trash_ok hok
  rw [(Directory.fetch_actor_summary_ok hactor).1] at hdeletions
  unfold set_deletion at hdeletions
  dsimp only at hdeletions
  split at hdeletions
  · cases hdeletions
  · rename_i row _
    refine ⟨{ row with permanently_deleted_at := some now }, ?_, rfl⟩
    dsimp only
    rw [← Except.ok.inj hdeletions]
    exact Table.rows_set_self _ _ _

/-- The runs that go on from a state. -/
def machineFrom (w : World) : Machine World Action := { machine with Start := fun s => s = w }

/-- Ana's draft goes to the trash. -/
def trashedRun : Option World := machine.run emptyWorld
  [.create "ana" "doc" sampleIds (plainPayload ["bo"]) 1, .trash "ana" "doc" .deleted 2]

/-- The draft is deleted for good. -/
def erasedRun : Option World :=
  trashedRun.bind (fun w => machine.step w (.trash "ana" "doc" .permanently_deleted 3))

/-- Ana deletes the draft once more. -/
def deletedAgainRun : Option World :=
  erasedRun.bind (fun w => machine.step w (.trash "ana" "doc" .deleted 4))

end moaworks.approvals
