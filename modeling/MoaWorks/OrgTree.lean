-- The tree that an import builds: one department for each row, each user in his
-- department, and each parent where the sheet has it, if it comes first.
import MoaWorks.OrgMissing

namespace moaworks.org

/-! ## What the sheets ask for -/

/-- Every parent code is the code of a row that comes before. `seen` are the codes so far. -/
def ParentsFirst : List String → List departments.ImportRow → Prop
  | _, [] => True
  | seen, row :: rest =>
    (∀ code, row.parentDepartmentCode = some code → code ∈ seen) ∧
      ParentsFirst (row.departmentCode :: seen) rest

def department_status (row : departments.ImportRow) : departments.Status :=
  if row.active then .active else .inactive

/-- The department of a row, with its name, its code and its status. -/
structure MadeDepartment (ids : NewIds) (before after : Directory) (row : departments.ImportRow)
    (department : departments.Department) : Prop where
  fresh : before.departments.rows (ids.department row.rowNumber) = none
  made : after.departments.rows (ids.department row.rowNumber) = some department
  name : department.name = row.departmentName
  status : department.status = department_status row
  code : after.department_codes.rows (ids.department row.rowNumber) = some row.departmentCode

/-- A root exactly for an empty parent code, else the child of the department of the code. -/
def Placement (rows : List departments.ImportRow) (ids : NewIds) (row : departments.ImportRow)
    (parent_id : Option String) : Prop :=
  match row.parentDepartmentCode with
  | none => parent_id = none
  | some code => ∃ parent ∈ rows, parent.departmentCode = code ∧
      parent_id = some (ids.department parent.rowNumber)

/-- A user of the file, where the file has him. -/
structure PlacedUser (rows : List departments.ImportRow) (ids : NewIds) (before after : Directory)
    (row : UserRow) (id : String) (user : User) : Prop where
  stored : after.users.rows id = some user
  same : ∀ existing current, existing_user before row.loginId = some (existing, current) →
    id = existing ∧ user.email = current.email
  created : existing_user before row.loginId = none → before.users.rows id = none ∧
    user.email = row.loginId ++ "@" ++ before.company_domain
  name : user.name = row.name
  department : ∃ department ∈ rows, department.departmentCode = row.departmentCode ∧
    user.department_id = ids.department department.rowNumber
  role : resolve_role before row.roleCode = .ok user.role_id
  status : user.status = row_status row

/-- Everything that the sheets ask for, but for the parents. -/
structure BuiltRows (rows : List departments.ImportRow) (users : List UserRow) (ids : NewIds)
    (before after : Directory) : Prop where
  distinct : (rows.map (fun row => ids.department row.rowNumber)).Nodup
  exactly : ∀ id, (after.departments.rows id).isSome ↔ (before.departments.rows id).isSome ∨
    ∃ row ∈ rows, ids.department row.rowNumber = id
  departments : ∀ row ∈ rows, ∃ department, MadeDepartment ids before after row department
  users : ∀ row ∈ users, ∃ id user, PlacedUser rows ids before after row id user

/-- The tree of the sheet. -/
def BuiltTree (rows : List departments.ImportRow) (ids : NewIds) (after : Directory) : Prop :=
  ∀ row ∈ rows, ∀ department,
    after.departments.rows (ids.department row.rowNumber) = some department →
    Placement rows ids row department.parent_id

/-! ## Parents -/

section Parents

variable {rows before after : List departments.ImportRow} {row parent : departments.ImportRow}
  {ids : NewIds} {n : Nat} {code : String}

/-- After the loop over some rows the map knows their numbers, and no others. -/
theorem recorded_rows : recorded (rows.map (fun row => (row, ids.department row.rowNumber)))
    (fun _ => none) n = if n ∈ rows.map (·.rowNumber) then some (ids.department n) else none := by
  induction rows using List.reverseRecOn with
  | nil => rfl
  | append_singleton rows row ih =>
    unfold recorded at ih ⊢
    rw [List.map_append, List.foldl_append, List.map_cons, List.map_nil, List.foldl_cons,
      List.foldl_nil, ih]
    by_cases hn : n = row.rowNumber
    · simp [hn]
    · simp [hn]

theorem parentRow_none (h : row.parentDepartmentCode = none) :
    departments.parentRow rows row = .ok none := by
  unfold departments.parentRow
  rw [h]

/-- A parent code without an issue is the code of one other row. -/
theorem parentRow_some {parentRowNumber : Option Nat} (h : row.parentDepartmentCode = some code)
    (hok : departments.parentRow rows row = .ok parentRowNumber) :
    ∃ parent ∈ rows, parentRowNumber = some parent.rowNumber ∧ parent.departmentCode = code ∧
      parent.rowNumber ≠ row.rowNumber ∧
      ∀ other ∈ rows, other.departmentCode = code → other = parent := by
  unfold departments.parentRow at hok
  rw [h] at hok
  dsimp only at hok
  split at hok
  · cases hok
  · rename_i parent hfilter
    have hmem : parent ∈ rows.filter (fun other => decide (other.departmentCode ≠ "") &&
        decide (other.departmentCode = code)) := by
      rw [hfilter]
      exact List.mem_singleton_self _
    rw [List.mem_filter, Bool.and_eq_true, decide_eq_true_eq, decide_eq_true_eq] at hmem
    split_ifs at hok with hself
    cases hok
    refine ⟨parent, hmem.1, rfl, hmem.2.2, hself, ?_⟩
    intro other hother hcode
    have hsame : other ∈ rows.filter (fun other => decide (other.departmentCode ≠ "") &&
        decide (other.departmentCode = code)) := by
      rw [List.mem_filter, Bool.and_eq_true, decide_eq_true_eq, decide_eq_true_eq]
      exact ⟨hother, hcode.trans hmem.2.2.symm ▸ hmem.2.1, hcode⟩
    rw [hfilter, List.mem_singleton] at hsame
    exact hsame
  · cases hok

/-- The condition, one row at a time. -/
theorem parentsFirst_iff {seen : List String} : ParentsFirst seen rows ↔
    ∀ before row after, rows = before ++ row :: after → ∀ code, row.parentDepartmentCode = some code →
      code ∈ seen ∨ ∃ parent ∈ before, parent.departmentCode = code := by
  induction rows generalizing seen with
  | nil =>
    refine iff_of_true trivial ?_
    intro before row after h
    simp at h
  | cons first rest ih =>
    unfold ParentsFirst
    rw [ih]
    constructor
    · rintro ⟨hfirst, hrest⟩ before row after hsplit code hcode
      cases before with
      | nil =>
        rw [List.nil_append, List.cons.injEq] at hsplit
        exact .inl (hfirst code (hsplit.1 ▸ hcode))
      | cons head before =>
        rw [List.cons_append, List.cons.injEq] at hsplit
        obtain ⟨rfl, hsplit⟩ := hsplit
        rcases hrest before row after hsplit code hcode with hseen | ⟨parent, hparent, heq⟩
        · rcases List.mem_cons.1 hseen with rfl | hseen
          · exact .inr ⟨first, List.mem_cons_self, rfl⟩
          · exact .inl hseen
        · exact .inr ⟨parent, List.mem_cons_of_mem _ hparent, heq⟩
    · intro h
      refine ⟨?_, ?_⟩
      · intro code hcode
        rcases h [] first rest rfl code hcode with hseen | ⟨parent, hparent, _⟩
        · exact hseen
        · cases hparent
      · intro before row after hsplit code hcode
        rcases h (first :: before) row after (by rw [hsplit, List.cons_append]) code hcode with
          hseen | ⟨parent, hparent, heq⟩
        · exact .inl (List.mem_cons_of_mem _ hseen)
        · rcases List.mem_cons.1 hparent with rfl | hparent
          · exact .inl (heq ▸ List.mem_cons_self)
          · exact .inr ⟨parent, hparent, heq⟩

end Parents

/-! ## An applied batch -/

section Applied

variable {int_float : String → Whole} {d d' : Directory} {analysis : Analysis} {ids : NewIds}
  {now : Nat} {actor_email : Option String} {batch : Batch}

/-- An analysis without errors knows the parent of each row. -/
theorem parentRow_of_passed (h : analyze_batch int_float d batch actor_email = .ok analysis)
    (herrors : analysis.errors = []) {row : departments.ImportRow} (hrow : row ∈ analysis.departments) :
    ∃ parentRowNumber, departments.parentRow analysis.departments row = .ok parentRowNumber := by
  obtain ⟨_, _, _, _, hissues⟩ := analyze_import_ok h
  rw [hissues, List.append_eq_nil_iff, List.append_eq_nil_iff, List.flatMap_eq_nil_iff,
    List.flatMap_eq_nil_iff] at herrors
  have hnone := herrors.1.2 row hrow
  unfold parent_issues at hnone
  cases hparent : departments.parentRow analysis.departments row with
  | ok parentRowNumber => exact ⟨parentRowNumber, rfl⟩
  | error message =>
    rw [hparent] at hnone
    cases hnone

variable (h : Applied d analysis ids now d')
include h

/-- A row stands where the sheet has it exactly when its parent has come before. -/
theorem Applied.placement_iff {first rest : List departments.ImportRow} {row : departments.ImportRow}
    (hsplit : analysis.departments = first ++ row :: rest) {parentRowNumber : Option Nat}
    (hparent : departments.parentRow analysis.departments row = .ok parentRowNumber) :
    Placement analysis.departments ids row (inserted analysis.departments row (recorded
        ((first ++ [row]).map (fun row => (row, ids.department row.rowNumber)))
        (fun _ => none))).parent_id ↔
      ∀ code, row.parentDepartmentCode = some code →
        ∃ parent ∈ first, parent.departmentCode = code := by
  unfold Placement inserted
  dsimp only
  rw [hparent]
  cases hcode : row.parentDepartmentCode with
  | none =>
    rw [parentRow_none hcode] at hparent
    cases hparent
    simp
  | some code =>
    obtain ⟨parent, hmem, rfl, hparentCode, hne, honly⟩ := parentRow_some hcode hparent
    dsimp only
    rw [recorded_rows]
    simp only [Option.some.injEq, forall_eq']
    constructor
    · rintro ⟨other, _, _, heq⟩
      split_ifs at heq with hknown
      obtain ⟨known, hknown, hnumber⟩ := List.mem_map.1 hknown
      rcases List.mem_append.1 hknown with hfirst | hself
      · have hsame : known = parent := h.department_eq
          (hsplit ▸ List.mem_append_left _ hfirst) hmem (by rw [hnumber])
        exact ⟨parent, hsame ▸ hfirst, hparentCode⟩
      · rw [List.mem_singleton] at hself
        exact absurd (hself ▸ hnumber).symm hne
    · rintro ⟨other, hother, hotherCode⟩
      have hsame := honly other (hsplit ▸ List.mem_append_left _ hother) hotherCode
      subst hsame
      refine ⟨other, hmem, hparentCode, ?_⟩
      rw [if_pos]
      exact List.mem_map.2 ⟨other, List.mem_append_left _ hother, rfl⟩

theorem Applied.tree_iff (hanalysis : analyze_batch int_float d batch actor_email = .ok analysis)
    (herrors : analysis.errors = []) :
    BuiltTree analysis.departments ids d' ↔ ParentsFirst [] analysis.departments := by
  rw [parentsFirst_iff]
  constructor
  · intro htree first row rest hsplit code hcode
    have hrow : row ∈ analysis.departments := by
      rw [hsplit]
      exact List.mem_append_right _ List.mem_cons_self
    obtain ⟨_, hparent⟩ := parentRow_of_passed hanalysis herrors hrow
    have hplaced := htree row hrow _ (h.new_department hsplit)
    exact .inr ((h.placement_iff hsplit hparent).1 hplaced code hcode)
  · intro hfirst row hrow department hdepartment
    obtain ⟨_, hparent⟩ := parentRow_of_passed hanalysis herrors hrow
    obtain ⟨first, rest, hsplit⟩ := List.append_of_mem hrow
    rw [h.new_department hsplit] at hdepartment
    cases hdepartment
    refine (h.placement_iff hsplit hparent).2 ?_
    intro code hcode
    rcases hfirst first row rest hsplit code hcode with hseen | hparent
    · cases hseen
    · exact hparent

theorem Applied.exactly {id : String} : (d'.departments.rows id).isSome ↔
    (d.departments.rows id).isSome ∨ ∃ row ∈ analysis.departments, ids.department row.rowNumber = id := by
  by_cases hnew : ∃ row ∈ analysis.departments, ids.department row.rowNumber = id
  · obtain ⟨row, hrow, rfl⟩ := hnew
    obtain ⟨first, rest, hsplit⟩ := List.append_of_mem hrow
    rw [h.new_department hsplit]
    exact iff_of_true rfl (.inr ⟨row, hrow, rfl⟩)
  · rw [or_iff_left hnew, h.imported.departments, rows_insertRows_old, departments.deactivate_rows,
      Option.isSome_map]
    rintro entry hentry rfl
    obtain ⟨row, hrow, rfl⟩ := List.mem_map.1 hentry
    exact hnew ⟨row, hrow, rfl⟩

theorem Applied.made {row : departments.ImportRow} (hrow : row ∈ analysis.departments) :
    ∃ department, MadeDepartment ids d d' row department := by
  obtain ⟨first, rest, hsplit⟩ := List.append_of_mem hrow
  refine ⟨_, ?_, h.new_department hsplit, rfl, rfl, ?_⟩
  · exact (departments.fresh_iff.1 (h.fresh.departments row hrow)).2.1
  · rw [h.imported.department_codes]
    exact rows_codes_new h.fresh.distinct_departments hrow

/-- The row of a user decides about him: nobody with a row is missing. -/
theorem Applied.placed (hstored : Stored int_float batch)
    (hanalysis : analyze_batch int_float d batch actor_email = .ok analysis)
    (hfresh : ids.Fresh d batch.departments batch.user_rows) {row : UserRow}
    (hrow : row ∈ analysis.users) :
    ∃ id user, PlacedUser analysis.departments ids d d' row id user := by
  obtain ⟨department, role_id, hresolved, huser⟩ := h.imported.each row hrow
  obtain ⟨hmem, hcode, _⟩ := resolve_department_ok hresolved.department
  rw [if_neg] at huser
  · refine ⟨target d ids row, _, huser, ?_, ?_, ?_, ?_, ?_, placed_status⟩
    · intro existing current hexisting
      simp only [target, org.placed, hexisting]
      exact ⟨trivial, rfl⟩
    · intro hexisting
      simp only [target, org.placed, hexisting]
      exact ⟨h.fresh.unused row hrow, rfl⟩
    · unfold org.placed
      split
      · rfl
      · rfl
    · exact ⟨department, hmem, hcode, placed_department_id⟩
    · rw [hresolved.role]
      unfold org.placed
      split
      · rfl
      · rfl
  · intro hmissing
    obtain ⟨listed, hlisted, hid⟩ := List.mem_map.1 hmissing
    obtain ⟨hlistedRow, habsent⟩ := analyzed_missing hanalysis hlisted
    exact target_ne hstored hanalysis hfresh hrow hlistedRow habsent.absent hid.symm

end Applied

/-! ## The rows as they were uploaded -/

section Resorted

variable {rows rows' : List departments.ImportRow} {users : List UserRow} {ids : NewIds}
  {before after : Directory}

theorem ids_resorted (h : List.Forall₂ Resorted rows rows') :
    rows'.map (fun row => ids.department row.rowNumber) =
      rows.map (fun row => ids.department row.rowNumber) := by
  induction h with
  | nil => rfl
  | cons hrow _ ih => rw [List.map_cons, List.map_cons, ih, hrow.number]

theorem parentsFirst_resorted (h : List.Forall₂ Resorted rows rows') {seen : List String} :
    ParentsFirst seen rows' ↔ ParentsFirst seen rows := by
  induction h generalizing seen with
  | nil => exact Iff.rfl
  | cons hrow _ ih =>
    unfold ParentsFirst
    rw [hrow.parent, hrow.code, ih]

theorem BuiltTree.resorted (h : List.Forall₂ Resorted rows rows') (hbuilt : BuiltTree rows ids after) :
    BuiltTree rows' ids after := by
  intro row' hrow' department hdepartment
  obtain ⟨row, hrow, hsame⟩ := resorted_of_mem (resorted_symm h) hrow'
  rw [← hsame.number] at hdepartment
  have hplaced := hbuilt row hrow department hdepartment
  unfold Placement at hplaced ⊢
  rw [← hsame.parent]
  cases hcode : row.parentDepartmentCode with
  | none =>
    rw [hcode] at hplaced
    exact hplaced
  | some code =>
    rw [hcode] at hplaced
    obtain ⟨parent, hparent, hparentCode, hid⟩ := hplaced
    obtain ⟨parent', hparent', hsame'⟩ := resorted_of_mem h hparent
    exact ⟨parent', hparent', hsame'.code.trans hparentCode, by rw [hid, hsame'.number]⟩

theorem BuiltRows.resorted (h : List.Forall₂ Resorted rows rows')
    (hbuilt : BuiltRows rows users ids before after) : BuiltRows rows' users ids before after := by
  refine ⟨?_, ?_, ?_, ?_⟩
  · rw [ids_resorted h]
    exact hbuilt.distinct
  · intro id
    rw [hbuilt.exactly]
    have hids : (∃ row ∈ rows, ids.department row.rowNumber = id) ↔
        ∃ row ∈ rows', ids.department row.rowNumber = id := by
      simp only [← List.mem_map (f := fun row : departments.ImportRow => ids.department row.rowNumber)]
      rw [ids_resorted h]
    rw [hids]
  · intro row' hrow'
    obtain ⟨row, hrow, hsame⟩ := resorted_of_mem (resorted_symm h) hrow'
    obtain ⟨department, hmade⟩ := hbuilt.departments row hrow
    refine ⟨department, ?_, ?_, ?_, ?_, ?_⟩
    · rw [← hsame.number]
      exact hmade.fresh
    · rw [← hsame.number]
      exact hmade.made
    · rw [← hsame.name]
      exact hmade.name
    · unfold department_status
      rw [← hsame.active]
      exact hmade.status
    · rw [← hsame.number, ← hsame.code]
      exact hmade.code
  · intro row hrow
    obtain ⟨id, user, hplaced⟩ := hbuilt.users row hrow
    obtain ⟨department, hmem, hcode, hid⟩ := hplaced.department
    obtain ⟨department', hmem', hsame⟩ := resorted_of_mem h hmem
    exact ⟨id, user, { hplaced with
      department := ⟨department', hmem', hsame.code.trans hcode, by rw [hid, hsame.number]⟩ }⟩

end Resorted

/-! ## Every import -/

/-- Everything that the uploaded rows ask for. -/
def Built (shown : Batch) (ids : NewIds) (before after : Directory) : Prop :=
  BuiltRows shown.departments shown.users ids before after ∧ BuiltTree shown.departments ids after

/-- An import makes one department for each row and places each user, and it builds the
tree of the sheet exactly when each row stands after the row of its parent. -/
theorem imports_build_the_tree_iff (int_float : String → Whole) {w w' before after : World}
    {batch_id : String} {uploader actor : Option String} {workbook : Workbook} {scope : Option String}
    {ids : NewIds} {now : Nat} {payload : OrgImportApplyRequest}
    (hvalidate : (batch_machine int_float).step w
      (.validate_upload batch_id uploader workbook scope) = some w')
    (hlater : (batch_machine int_float).Later w' before) (hbatch : payload.batchId = batch_id)
    (happly : (batch_machine int_float).step before (.apply_batch actor ids now payload) = some after) :
    ∃ raws shown, parse_workbook workbook = .ok raws ∧
      raws.1.mapM (normalize_department int_float) = .ok shown.departments ∧
      shown.users = raws.2.map normalize_user ∧ w'.batches.rows batch_id = some shown ∧
      BuiltRows shown.departments shown.users ids before.directory after.directory ∧
      (Built shown ids before.directory after.directory ↔ ParentsFirst [] shown.departments) := by
  subst hbatch
  obtain ⟨raws, analysis, hraws, hshown, hstored⟩ := validated hvalidate
  obtain ⟨hdepartments, husers, _⟩ := analyze_import_ok hshown
  refine ⟨raws, _, hraws, hdepartments, husers, hstored, ?_⟩
  have hdoes : Does int_float before after (.apply_batch actor ids now payload) := step_does happly
  cases hdoes with
  | @apply_batch _ _ _ _ batch applied hfound hfresh hanalysis hpassed himported hbatches =>
    obtain ⟨found, hbatch, hkept⟩ := Kept.later ⟨_, hstored, .inl rfl⟩ hlater
    rw [hfound, Option.some.injEq] at hbatch
    subst hbatch
    have hsame := hkept.resolve_right hpassed.pending
    rw [← hsame]
    have hstored' : Stored int_float batch := hsame ▸ stored_of_analysis hshown
    have hmade := applied_of hanalysis hpassed.errors hfresh himported
    have hrows := resorted_symm (reread_departments hstored' hanalysis)
    have hbuilt : BuiltRows batch.departments batch.users ids before.directory after.directory := by
      rw [← reread_users hstored' hanalysis]
      apply BuiltRows.resorted hrows
      exact ⟨hmade.fresh.distinct_departments, fun _ => hmade.exactly, fun _ hrow => hmade.made hrow,
        fun _ hrow => hmade.placed hstored' hanalysis hfresh hrow⟩
    refine ⟨hbuilt, ?_⟩
    have htree := hmade.tree_iff hanalysis hpassed.errors
    rw [← parentsFirst_resorted hrows] at htree
    unfold Built
    rw [and_iff_right hbuilt, ← htree]
    exact ⟨BuiltTree.resorted (resorted_symm hrows), BuiltTree.resorted hrows⟩

/-! ## Two orders of the same rows -/

def headquarters : List String := ["HQ", "본사", "", "100", "active"]

def sales : List String := ["SALES", "영업팀", "HQ", "110", "active"]

def workbookOf (rows : List (List String)) : Workbook where
  departments := some (sheet "departments" DEPARTMENT_HEADERS rows)
  users := some (sheet "users" USER_HEADERS [["lee.sun", "이순신", "SALES", "role", "active"]])

def uploadOf (rows : List (List String)) : Event :=
  .validate_upload "batch" none (workbookOf rows) (some "none")

def applyIt : Event := .apply_batch none newIds 2 ⟨"batch", false, none⟩

/-- The parent first, as in the template. -/
def orderedUpload : World :=
  ((batch_machine hundred).step founded (uploadOf [headquarters, sales])).get (by decide)

def orderedImport : World :=
  ((batch_machine hundred).step orderedUpload applyIt).get (by decide)

/-- The child first. -/
def childUpload : World :=
  ((batch_machine hundred).step founded (uploadOf [sales, headquarters])).get (by decide)

def childImport : World :=
  ((batch_machine hundred).step childUpload applyIt).get (by decide)

theorem orderedUpload_step :
    (batch_machine hundred).step founded (uploadOf [headquarters, sales]) = some orderedUpload :=
  (Option.some_get _).symm

theorem orderedImport_step : (batch_machine hundred).step orderedUpload applyIt = some orderedImport :=
  (Option.some_get _).symm

theorem childUpload_step :
    (batch_machine hundred).step founded (uploadOf [sales, headquarters]) = some childUpload :=
  (Option.some_get _).symm

theorem childImport_step : (batch_machine hundred).step childUpload applyIt = some childImport :=
  (Option.some_get _).symm

theorem the_template_order_is_built : ∃ raws shown,
    parse_workbook (workbookOf [headquarters, sales]) = .ok raws ∧
      raws.1.mapM (normalize_department hundred) = .ok shown.departments ∧
      shown.users = raws.2.map normalize_user ∧ orderedUpload.batches.rows "batch" = some shown ∧
      BuiltRows shown.departments shown.users newIds orderedUpload.directory
        orderedImport.directory ∧
      (Built shown newIds orderedUpload.directory orderedImport.directory ↔
        ParentsFirst [] shown.departments) :=
  imports_build_the_tree_iff hundred orderedUpload_step (.refl _) rfl orderedImport_step

theorem a_child_before_its_parent_becomes_a_root : ¬ ∀ (int_float : String → Whole)
    (w w' before after : World) (batch_id : String) (uploader actor : Option String)
    (workbook : Workbook) (scope : Option String) (ids : NewIds) (now : Nat)
    (payload : OrgImportApplyRequest),
    (batch_machine int_float).step w (.validate_upload batch_id uploader workbook scope) = some w' →
    (batch_machine int_float).Later w' before → payload.batchId = batch_id →
    (batch_machine int_float).step before (.apply_batch actor ids now payload) = some after →
    ∃ shown, w'.batches.rows batch_id = some shown ∧
      Built shown ids before.directory after.directory := by
  intro h
  obtain ⟨shown, hshown, hbuilt⟩ := h hundred founded childUpload childUpload childImport "batch" none
    none (workbookOf [sales, headquarters]) (some "none") newIds 2 ⟨"batch", false, none⟩
    childUpload_step (.refl _) rfl childImport_step
  have hrows : (childUpload.batches.rows "batch").map (fun batch => batch.departments.map
      (fun row => (row.rowNumber, row.parentDepartmentCode))) =
      some [(2, some "HQ"), (3, none)] := by decide +kernel
  have hroot : (childImport.directory.departments.rows "dept2").map (·.parent_id) = some none := by
    decide +kernel
  rw [hshown, Option.map_some, Option.some.injEq] at hrows
  have hmem : (2, some "HQ") ∈ shown.departments.map
      (fun row => (row.rowNumber, row.parentDepartmentCode)) := hrows ▸ List.mem_cons_self
  obtain ⟨row, hrow, heq⟩ := List.mem_map.1 hmem
  rw [Prod.mk.injEq] at heq
  rw [Option.map_eq_some_iff] at hroot
  obtain ⟨department, hdepartment, hparent⟩ := hroot
  have hplaced := hbuilt.2 row hrow department (by rw [heq.1]; exact hdepartment)
  unfold Placement at hplaced
  rw [heq.2, hparent] at hplaced
  obtain ⟨_, _, _, hnone⟩ := hplaced
  cases hnone

end moaworks.org
