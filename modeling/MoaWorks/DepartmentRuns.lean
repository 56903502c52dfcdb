-- The hierarchy of the departments in every run: no living department stands
-- under a deleted one, and a cycle comes only from a move into one's own branch.
import MoaWorks.Departments
import MoaWorks.Lib.Raise

namespace moaworks.departments

open Forest (Acyclic Below acyclic_update_iff)

variable {departments departments' : Departments} {id : String}

/-! ## One row -/

theorem parentOf_set (departments : Departments) (id : String) (row : Department) :
    parentOf (departments.set id row) = Function.update (parentOf departments) id row.parent_id := by
  funext k
  unfold parentOf
  by_cases hk : k = id
  · rw [hk, Function.update_self, Table.rows_set_self]
    rfl
  · rw [Function.update_of_ne hk, Table.rows_set_ne _ _ hk]

/-- The row fits between its parent and its children. -/
structure Placed (departments : Departments) (id : String) (row : Department) : Prop where
  parent : ∀ parent_id parent, row.parent_id = some parent_id → parent_id ≠ id →
    row.status ≠ .deleted → departments.rows parent_id = some parent → parent.status ≠ .deleted
  children : ∀ k child, departments.rows k = some child → child.parent_id = some id →
    child.status ≠ .deleted → row.status ≠ .deleted

theorem Living.set (h : Living departments) {row : Department} (hplaced : Placed departments id row) :
    Living (departments.set id row) := by
  intro k department parent_id parent hk hliving hparent hrow
  rw [Table.rows_set] at hk hrow
  by_cases hkid : k = id
  · rw [if_pos hkid] at hk
    cases hk
    by_cases hself : parent_id = id
    · rw [if_pos hself] at hrow
      cases hrow
      exact hliving
    · rw [if_neg hself] at hrow
      exact hplaced.parent parent_id parent hparent hself hliving hrow
  · rw [if_neg hkid] at hk
    by_cases hself : parent_id = id
    · rw [if_pos hself] at hrow
      cases hrow
      rw [hself] at hparent
      exact hplaced.children k department hk hparent hliving
    · rw [if_neg hself] at hrow
      exact h k department parent_id parent hk hliving hparent hrow

/-- The parent of the row is neither the department itself nor below it. -/
def Outside (departments : Departments) (id : String) (row : Department) : Prop :=
  ∀ parent_id, row.parent_id = some parent_id →
    parent_id ≠ id ∧ ¬ Below (parentOf departments) parent_id id

theorem acyclic_set_iff (h : Acyclic (parentOf departments)) {row : Department} :
    Acyclic (parentOf (departments.set id row)) ↔ Outside departments id row := by
  rw [parentOf_set]
  exact acyclic_update_iff h

/-! ## New departments -/

/-- Only the departments that are there have a parent. -/
theorem ne_parentOf_of_keys (h : ∀ k ∈ departments.keys, parentOf departments k ≠ some id) :
    ∀ k, parentOf departments k ≠ some id := by
  intro k hk
  have hrow : (departments.rows k).isSome := by
    unfold parentOf at hk
    obtain ⟨row, hrow, _⟩ := Option.bind_eq_some_iff.1 hk
    rw [hrow]
    rfl
  exact h k ((departments.mem_keys k).2 hrow) hk

theorem fresh_iff : fresh departments id = true ↔
    id ≠ "" ∧ departments.rows id = none ∧ ∀ k, parentOf departments k ≠ some id := by
  unfold fresh
  simp only [Bool.and_eq_true, decide_eq_true_eq, and_assoc]
  constructor
  · rintro ⟨hid, hnone, hkeys⟩
    exact ⟨hid, hnone, ne_parentOf_of_keys hkeys⟩
  · rintro ⟨hid, hnone, hall⟩
    exact ⟨hid, hnone, fun k _ => hall k⟩

/-- A new row under a department that is there and lives, or under none. -/
structure Attached (departments : Departments) (row : Department) : Prop where
  found : ∀ parent_id, row.parent_id = some parent_id →
    ∃ parent, departments.rows parent_id = some parent ∧ parent.status ≠ .deleted

theorem Attached.placed {row : Department} (h : Attached departments row)
    (hfresh : fresh departments id = true) : Placed departments id row := by
  obtain ⟨_, _, hleaf⟩ := fresh_iff.1 hfresh
  constructor
  · intro parent_id parent hparent _ _ hrow
    obtain ⟨found, hfound, hliving⟩ := h.found parent_id hparent
    rw [hrow] at hfound
    cases hfound
    exact hliving
  · intro k child hk hchild _
    have hparent : parentOf departments k = some id := by
      unfold parentOf
      rw [hk]
      exact hchild
    exact absurd hparent (hleaf k)

theorem Attached.outside {row : Department} (h : Attached departments row)
    (hfresh : fresh departments id = true) : Outside departments id row := by
  obtain ⟨_, hnone, hleaf⟩ := fresh_iff.1 hfresh
  intro parent_id hparent
  constructor
  · rintro rfl
    obtain ⟨parent, hrow, _⟩ := h.found parent_id hparent
    rw [hnone] at hrow
    cases hrow
  · exact Forest.not_below_of_leaf hleaf

/-- Another new id is still new. -/
theorem Attached.fresh_set {row : Department} (h : Attached departments row) {other : String}
    (hother : fresh departments other = true) (hne : other ≠ id) :
    fresh (departments.set id row) other = true := by
  obtain ⟨hname, hnone, hleaf⟩ := fresh_iff.1 hother
  refine fresh_iff.2 ⟨hname, ?_, ?_⟩
  · rw [Table.rows_set_ne _ _ hne, hnone]
  · intro k
    rw [parentOf_set]
    by_cases hk : k = id
    · rw [hk, Function.update_self]
      intro hparent
      obtain ⟨parent, hrow, _⟩ := h.found other hparent
      rw [hnone] at hrow
      cases hrow
    · rw [Function.update_of_ne hk]
      exact hleaf k

/-! ## The operations -/

theorem create_department_ok {name : String} {parent_id : Option String} {sort_order : Int}
    (h : create_department departments id name parent_id sort_order = .ok departments') :
    ∃ row, departments' = departments.set id row ∧ Attached departments row := by
  unfold create_department at h
  refine ⟨⟨Text.strip name, parent_id, .active, sort_order, false⟩, ?_⟩
  cases parent_id with
  | none =>
    cases h
    refine ⟨rfl, ⟨?_⟩⟩
    intro _ hparent
    cases hparent
  | some parent_id =>
    dsimp only at h
    split at h
    · cases h
    · rename_i parent hparent
      split_ifs at h with hdeleted
      cases h
      refine ⟨rfl, ⟨?_⟩⟩
      intro _ hsome
      cases hsome
      exact ⟨parent, hparent, hdeleted⟩

theorem update_department_ok {payload : DepartmentUpdateRequest}
    (h : update_department departments id payload = .ok departments') :
    ∃ current, departments.rows id = some current ∧
      departments' = departments.set id (updated current payload) ∧
      ∀ parent_id, (updated current payload).parent_id = some parent_id → parent_id ≠ "" →
        parent_id ≠ id ∧ ∃ parent, departments.rows parent_id = some parent ∧
          parent.status ≠ .deleted := by
  unfold update_department at h
  split at h
  · cases h
  · rename_i current hcurrent
    dsimp only at h
    refine ⟨current, hcurrent, ?_⟩
    split at h
    · rename_i hnone
      cases h
      refine ⟨rfl, ?_⟩
      intro parent_id hparent hne
      rw [hparent] at hnone
      simp [hne] at hnone
    · rename_i next_parent_id hsome
      rw [Option.filter_eq_some_iff, decide_eq_true_eq] at hsome
      split at h
      · cases h
      · rename_i parent hparent
        split_ifs at h with hself hdeleted
        cases h
        refine ⟨rfl, ?_⟩
        intro parent_id hid _
        rw [hsome.1] at hid
        cases hid
        exact ⟨hself, parent, hparent, hdeleted⟩

theorem delete_department_ok {staffed : Bool}
    (h : delete_department departments id staffed = .ok departments') :
    ∃ current, departments.rows id = some current ∧
      departments' = departments.set id { current with status := .deleted } ∧
      ∀ k child, departments.rows k = some child → child.parent_id = some id →
        child.status = .deleted := by
  unfold delete_department at h
  split at h
  · cases h
  · rename_i current hcurrent
    split_ifs at h with _ _ hchildren
    cases h
    refine ⟨current, hcurrent, rfl, ?_⟩
    intro k child hk hparent
    by_contra hliving
    apply hchildren
    refine ⟨k, (Table.mem_select _ _ _).2 ⟨child, hk, ?_⟩⟩
    simp [hparent, hliving]

/-- A sheet without issues names no row as its own parent. -/
theorem parentRow_ne {rows : List ImportRow} {row : ImportRow} {parentRowNumber : Nat}
    (h : parentRow rows row = .ok (some parentRowNumber)) : parentRowNumber ≠ row.rowNumber := by
  unfold parentRow at h
  split at h
  · cases h
  · split at h
    · cases h
    · split_ifs at h with hself
      cases h
      exact hself
    · cases h

/-- What the loop over the new rows keeps, for any property of the tables that
each new row under a living department, or under none, keeps. -/
theorem insertRows_keeps {P : Departments → Prop} {sheet : List ImportRow}
    (hset : ∀ departments id row, P departments → fresh departments id = true →
      Attached departments row → P (departments.set id row))
    {rows : List (ImportRow × String)} {created : Nat → Option String}
    (hfresh : ∀ entry ∈ rows, fresh departments entry.2 = true) (hnodup : (rows.map (·.2)).Nodup)
    (hcreated : ∀ n id, created n = some id →
      ∃ row, departments.rows id = some row ∧ row.status ≠ .deleted)
    (h : P departments) : P (insertRows sheet rows created departments) := by
  induction rows generalizing created departments with
  | nil => exact h
  | cons entry rest ih =>
    obtain ⟨row, id⟩ := entry
    rw [List.map_cons, List.nodup_cons] at hnodup
    have hid : fresh departments id = true := hfresh (row, id) List.mem_cons_self
    unfold insertRows
    dsimp only
    generalize hnew : Department.mk row.departmentName _ _ row.sortOrder false = new
    -- the parent is one of the departments created before
    have hattached : Attached departments new := by
      constructor
      intro parent_id hparent
      rw [← hnew] at hparent
      dsimp only at hparent
      split at hparent
      · rename_i parentRowNumber hrow
        rw [if_neg (parentRow_ne hrow)] at hparent
        exact hcreated parentRowNumber parent_id hparent
      · cases hparent
    have hstatus : new.status ≠ .deleted := by
      rw [← hnew]
      dsimp only
      split_ifs <;> simp
    apply ih
    · intro other hother
      apply hattached.fresh_set (hfresh other (List.mem_cons_of_mem _ hother))
      rintro rfl
      exact hnodup.1 (List.mem_map.2 ⟨other, hother, rfl⟩)
    · exact hnodup.2
    · intro n other hn
      by_cases hsame : n = row.rowNumber
      · rw [if_pos hsame] at hn
        cases hn
        exact ⟨new, Table.rows_set_self _ _ _, hstatus⟩
      · rw [if_neg hsame] at hn
        obtain ⟨found, hfound, hliving⟩ := hcreated n other hn
        refine ⟨found, ?_, hliving⟩
        rw [Table.rows_set_ne _ _ _, hfound]
        rintro rfl
        rw [(fresh_iff.1 hid).2.1] at hfound
        cases hfound
    · exact hset departments id new h hid hattached

/-! ## Deactivating -/

theorem deactivate_rows : (deactivate departments).rows id =
    (departments.rows id).map (fun department =>
      if department.status = .active then { department with status := .inactive } else department) := by
  unfold deactivate
  rw [Table.rows_update]
  cases departments.rows id with
  | none => rfl
  | some department => simp

theorem parentOf_deactivate : parentOf (deactivate departments) = parentOf departments := by
  funext k
  unfold parentOf
  rw [deactivate_rows]
  cases departments.rows k with
  | none => rfl
  | some department =>
    by_cases hactive : department.status = .active
    · simp [hactive]
    · simp [hactive]

/-- The status of a department after the deactivation: deleted when it was. -/
theorem deactivate_row {department : Department} (h : (deactivate departments).rows id = some department) :
    ∃ old, departments.rows id = some old ∧ department.parent_id = old.parent_id ∧
      (department.status = .deleted ↔ old.status = .deleted) := by
  rw [deactivate_rows, Option.map_eq_some_iff] at h
  obtain ⟨old, hold, rfl⟩ := h
  refine ⟨old, hold, ?_⟩
  by_cases hactive : old.status = .active
  · simp [hactive]
  · simp [hactive]

theorem Living.deactivate (h : Living departments) : Living (deactivate departments) := by
  intro k department parent_id parent hk hliving hparent hrow
  obtain ⟨old, hold, hid, hstatus⟩ := deactivate_row hk
  obtain ⟨oldParent, holdParent, _, hparentStatus⟩ := deactivate_row hrow
  rw [hid] at hparent
  intro hdeleted
  exact h k old parent_id oldParent hold (fun hd => hliving (hstatus.2 hd)) hparent holdParent
    (hparentStatus.1 hdeleted)

theorem fresh_deactivate : fresh (deactivate departments) id = fresh departments id := by
  rw [Bool.eq_iff_iff, fresh_iff, fresh_iff, parentOf_deactivate, deactivate_rows,
    Option.map_eq_none_iff]

/-! ## Every run -/

/-- No department moves under a department below it. -/
def Outward (departments : Departments) : Action → Prop
  | .update_department department_id payload => ∀ parent_id, payload.parentId = some parent_id →
    ¬ Below (parentOf departments) parent_id department_id
  | _ => True

/-- The ids that name departments. -/
def Named (departments : Departments) : Prop := departments.rows "" = none

theorem Named.set (h : Named departments) {row : Department} (hne : id ≠ "") :
    Named (departments.set id row) := by
  unfold Named
  rw [Table.rows_set_ne _ _ (fun heq => hne heq.symm)]
  exact h

theorem Named.ne (h : Named departments) {row : Department} (hrow : departments.rows id = some row) :
    id ≠ "" := by
  rintro rfl
  unfold Named at h
  rw [h] at hrow
  cases hrow

theorem not_below_nameless (h : Named departments) : ¬ Below (parentOf departments) "" id := by
  intro hbelow
  obtain ⟨_, hstep, _⟩ := Relation.TransGen.head'_iff.1 hbelow
  unfold Forest.Step parentOf at hstep
  unfold Named at h
  rw [h] at hstep
  cases hstep

/-- An accepted update puts the department beside its descendants exactly when
it does not name one of them as the new parent. -/
theorem update_outside_iff {payload : DepartmentUpdateRequest} (hacyclic : Acyclic (parentOf departments))
    (hnamed : Named departments)
    (h : update_department departments id payload = .ok departments') :
    Acyclic (parentOf departments') ↔ Outward departments (.update_department id payload) := by
  obtain ⟨current, hcurrent, rfl, hchecked⟩ := update_department_ok h
  rw [acyclic_set_iff hacyclic]
  have hid : id ≠ "" := hnamed.ne hcurrent
  constructor
  · intro houtside parent_id hparent
    apply (houtside parent_id _).2
    unfold updated
    rw [hparent, Option.some_or]
  · intro houtward parent_id hparent
    by_cases hname : parent_id = ""
    · rw [hname]
      exact ⟨fun heq => hid heq.symm, not_below_nameless hnamed⟩
    · refine ⟨(hchecked parent_id hparent hname).1, ?_⟩
      cases hmove : payload.parentId with
      | none =>
        -- the department stays where it is
        unfold updated at hparent
        rw [hmove, Option.none_or] at hparent
        have hstep : parentOf departments id = some parent_id := by
          unfold parentOf
          rw [hcurrent]
          exact hparent
        exact (hacyclic.parent_not_below hstep).2
      | some next =>
        have hnext : next = parent_id := by
          unfold updated at hparent
          rw [hmove, Option.some_or] at hparent
          exact Option.some.inj hparent
        rw [← hnext]
        exact houtward next hmove

/-- The ways in which one step changes the rows. -/
theorem step_does {a : Action} (h : step departments a = some departments') :
    (∃ id row, fresh departments id = true ∧ Attached departments row ∧
      departments' = departments.set id row) ∨
    (∃ id payload, a = .update_department id payload ∧
      update_department departments id payload = .ok departments') ∨
    (∃ id staffed, delete_department departments id staffed = .ok departments') ∨
    (∃ rows : List (ImportRow × String), (∀ entry ∈ rows, fresh departments entry.2 = true) ∧
      (rows.map (·.2)).Nodup ∧ departments' =
        insertRows (rows.map (·.1)) rows (fun _ => none) (deactivate departments)) := by
  cases a with
  | create_department id name parent_id sort_order =>
    dsimp only [step] at h
    split_ifs at h with hfresh
    obtain ⟨row, hset, hattached⟩ := create_department_ok (Raise.ok_of_toOption h)
    exact Or.inl ⟨id, row, hfresh, hattached, hset⟩
  | update_department id payload =>
    exact Or.inr (Or.inl ⟨id, payload, rfl, Raise.ok_of_toOption h⟩)
  | delete_department id staffed =>
    exact Or.inr (Or.inr (Or.inl ⟨id, staffed, Raise.ok_of_toOption h⟩))
  | apply_batch rows passed =>
    dsimp only [step] at h
    split_ifs at h with hnew
    have happly : apply_batch departments rows passed = .ok departments' := Raise.ok_of_toOption h
    unfold apply_batch at happly
    dsimp only at happly
    split_ifs at happly
    cases happly
    exact Or.inr (Or.inr (Or.inr ⟨rows, hnew.1, hnew.2, rfl⟩))

/-- What creating, importing and deleting keep, whatever an update does. -/
theorem keeps_of_attached {P : Departments → Prop} {a : Action}
    (hset : ∀ departments id row, P departments → fresh departments id = true →
      Attached departments row → P (departments.set id row))
    (hdeactivate : ∀ departments, P departments → P (deactivate departments))
    (hdelete : ∀ departments departments' id staffed, P departments →
      delete_department departments id staffed = .ok departments' → P departments')
    (hupdate : ∀ id payload, a = .update_department id payload →
      update_department departments id payload = .ok departments' → P departments')
    (hstep : step departments a = some departments') (h : P departments) : P departments' := by
  rcases step_does hstep with ⟨id, row, hfresh, hattached, rfl⟩ | ⟨id, payload, ha, hok⟩ |
    ⟨id, staffed, hok⟩ | ⟨rows, hfresh, hnodup, rfl⟩
  · exact hset departments id row h hfresh hattached
  · exact hupdate id payload ha hok
  · exact hdelete departments departments' id staffed h hok
  · apply insertRows_keeps hset _ hnodup _ (hdeactivate departments h)
    · intro entry hentry
      rw [fresh_deactivate]
      exact hfresh entry hentry
    · intro n id hid
      cases hid

theorem named_step {a : Action} (hstep : step departments a = some departments')
    (h : Named departments) : Named departments' := by
  apply keeps_of_attached _ _ _ _ hstep h
  · intro departments id row hnamed hfresh _
    exact hnamed.set (fresh_iff.1 hfresh).1
  · intro departments hnamed
    unfold Named
    rw [deactivate_rows, hnamed]
    rfl
  · intro departments departments' id staffed hnamed hok
    obtain ⟨current, hcurrent, rfl, _⟩ := delete_department_ok hok
    exact hnamed.set (hnamed.ne hcurrent)
  · intro id payload _ hok
    obtain ⟨current, hcurrent, rfl, _⟩ := update_department_ok hok
    exact h.set (h.ne hcurrent)

theorem living_step {a : Action} (hstep : step departments a = some departments')
    (hnamed : Named departments) (h : Living departments) : Living departments' := by
  apply keeps_of_attached _ _ _ _ hstep h
  · intro departments id row hliving hfresh hattached
    exact hliving.set (hattached.placed hfresh)
  · intro departments hliving
    exact hliving.deactivate
  · intro departments departments' id staffed hliving hok
    obtain ⟨current, _, rfl, hleaf⟩ := delete_department_ok hok
    apply hliving.set
    constructor
    · intro parent_id parent _ _ hdeleted
      exact absurd rfl hdeleted
    · intro k child hk hparent hchild
      exact absurd (hleaf k child hk hparent) hchild
  · intro id payload _ hok
    obtain ⟨current, hcurrent, rfl, hchecked⟩ := update_department_ok hok
    apply h.set
    constructor
    · intro parent_id parent hparent _ _ hrow
      obtain ⟨_, found, hfound, hstatus⟩ := hchecked parent_id hparent (hnamed.ne hrow)
      rw [hrow] at hfound
      cases hfound
      exact hstatus
    · intro k child hk hparent hchild
      -- the status of the request is never `deleted`
      have hcurrentLives : current.status ≠ .deleted := h k child id current hk hchild hparent hcurrent
      unfold updated
      dsimp only
      cases payload.activate with
      | none => exact hcurrentLives
      | some active => cases active <;> simp

theorem acyclic_step {a : Action} (hstep : step departments a = some departments')
    (hnamed : Named departments) (houtward : Outward departments a)
    (h : Acyclic (parentOf departments)) : Acyclic (parentOf departments') := by
  apply keeps_of_attached (P := fun departments => Acyclic (parentOf departments)) _ _ _ _ hstep h
  · intro departments id row hacyclic hfresh hattached
    exact (acyclic_set_iff hacyclic).2 (hattached.outside hfresh)
  · intro departments hacyclic
    rw [parentOf_deactivate]
    exact hacyclic
  · intro departments departments' id staffed hacyclic hok
    obtain ⟨current, hcurrent, rfl, _⟩ := delete_department_ok hok
    apply (acyclic_set_iff hacyclic).2
    intro parent_id hparent
    apply hacyclic.parent_not_below
    unfold parentOf
    rw [hcurrent]
    exact hparent
  · intro id payload ha hok
    subst ha
    exact (update_outside_iff h hnamed hok).2 houtward

theorem named_of_reachable (h : machine.Reachable departments) : Named departments := by
  apply Machine.Reachable.invariant _ _ h
  · intro s hstart
    exact hstart.named
  · intro s a s' hs hstep
    exact named_step hstep hs

theorem living_of_reachable (h : machine.Reachable departments) : Living departments := by
  have hboth : Named departments ∧ Living departments := by
    apply Machine.Reachable.invariant _ _ h
    · intro s hstart
      exact ⟨hstart.named, hstart.living⟩
    · intro s a s' hs hstep
      exact ⟨named_step hstep hs.1, living_step hstep hs.1 hs.2⟩
  exact hboth.2

theorem acyclic_of_reach (h : machine.Reach Outward departments) : Acyclic (parentOf departments) := by
  apply Machine.Reach.invariant _ _ h
  · intro s hstart
    exact hstart.acyclic
  · intro s a s' hreach hs houtward hstep
    exact acyclic_step hstep (named_of_reachable hreach.reachable) houtward hs

/-- The departments of every run keep living parents, and they stay a forest as
long as no department moves under one below it. That is exact: the first such
move that is accepted leaves a cycle. -/
theorem departments_stay_a_forest (departments : Departments) :
    (machine.Reachable departments → Living departments) ∧
      (machine.Reach Outward departments → Acyclic (parentOf departments) ∧
        ∀ a departments', machine.step departments a = some departments' →
          (Acyclic (parentOf departments') ↔ Outward departments a)) := by
  refine ⟨living_of_reachable, ?_⟩
  intro h
  have hacyclic := acyclic_of_reach h
  have hnamed := named_of_reachable h.reachable
  refine ⟨hacyclic, ?_⟩
  intro a departments' hstep
  constructor
  · intro hnext
    cases a with
    | update_department id payload =>
      exact (update_outside_iff hacyclic hnamed (Raise.ok_of_toOption hstep)).1 hnext
    | create_department | delete_department | apply_batch => exact trivial
  · intro houtward
    exact acyclic_step hstep hnamed houtward hacyclic

theorem start_empty : machine.Start Table.empty := by
  constructor
  · intro a
    apply Forest.not_below_of_leaf
    intro c hc
    cases hc
  · intro id department parent_id parent hrow
    cases hrow
  · rfl

/-- Sales and research, and a team in sales. -/
def teams : List Action :=
  [.create_department "sales" "Sales" none 0, .create_department "research" "Research" none 1,
    .create_department "team" "Team" (some "sales") 2]

def moveTo (id parent_id : String) : Action :=
  .update_department id ⟨none, some parent_id, none, none⟩

/-- Sales, research and the team. -/
def teamsRun : Option Departments := machine.run Table.empty teams

/-- The team moves from sales to research. -/
def movedRun : Option Departments := machine.run Table.empty (teams ++ [moveTo "team" "research"])

/-- Sales moves under its own team. -/
def cycleRun : Option Departments := machine.run Table.empty (teams ++ [moveTo "sales" "team"])

theorem teams_reach : machine.Reach Outward (teamsRun.get (by decide)) := by
  have hrun : machine.run Table.empty teams = some (teamsRun.get (by decide)) :=
    (Option.some_get _).symm
  apply (Machine.Reach.start start_empty).run _ hrun
  intro a ha t
  unfold teams at ha
  simp only [List.mem_cons, List.not_mem_nil, or_false] at ha
  rcases ha with rfl | rfl | rfl <;> exact trivial

/-- Nothing stands under the team, so it may go anywhere. -/
theorem team_is_leaf : ∀ k, parentOf (teamsRun.get (by decide)) k ≠ some "team" := by
  apply ne_parentOf_of_keys
  decide

theorem moved_reach : machine.Reach Outward (movedRun.get (by decide)) := by
  apply teams_reach.next (a := moveTo "team" "research")
  · intro parent_id _
    exact Forest.not_below_of_leaf team_is_leaf
  · rfl

theorem departments_stay_a_forest_after_a_move :
    Living (movedRun.get (by decide)) ∧ Acyclic (parentOf (movedRun.get (by decide))) :=
  have hforest := departments_stay_a_forest (movedRun.get (by decide))
  ⟨hforest.1 moved_reach.reachable, (hforest.2 moved_reach).1⟩

theorem moving_under_a_descendant_makes_a_cycle : ¬ ∀ departments : Departments,
    machine.Reachable departments → Acyclic (parentOf departments) ∧ Living departments := by
  intro h
  have hreach : machine.Reachable (cycleRun.get (by decide)) :=
    Machine.reachable_of_run start_empty (Option.some_get _).symm
  have hup : Forest.Step (parentOf (cycleRun.get (by decide))) "sales" "team" := by
    unfold Forest.Step
    decide
  have hdown : Forest.Step (parentOf (cycleRun.get (by decide))) "team" "sales" := by
    unfold Forest.Step
    decide
  exact (h _ hreach).1 "sales" (.tail (.single hup) hdown)

end moaworks.departments
