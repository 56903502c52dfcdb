-- A stored batch: what is read back from it is what was stored, and it stays
-- as it is until it is applied, whatever happens to the directory.
import MoaWorks.Lib.TextLaws
import MoaWorks.OrgRuns

namespace moaworks.org

/-! ## Reading a normalised row again -/

section Rows

variable {int_float : String → Whole} {value : Cell} {login_id : String} {user : User}

theorem strip_normalize_text : Text.strip (normalize_text value) = normalize_text value := by
  cases value with
  | none => exact Text.strip_of_no_space (by simp [normalize_text])
  | text value => exact Text.strip_strip value
  | other shown truthy => exact Text.strip_strip shown

theorem none_or (value : Cell) : Cell.none.or value = value := rfl

theorem normalize_status_text (active : Bool) : normalize_status (.text (status_text active)) = active := by
  cases active
  · decide
  · decide

/-- The same row, perhaps with another sort order. -/
structure Resorted (row row' : departments.ImportRow) : Prop where
  number : row'.rowNumber = row.rowNumber
  code : row'.departmentCode = row.departmentCode
  name : row'.departmentName = row.departmentName
  parent : row'.parentDepartmentCode = row.parentDepartmentCode
  active : row'.active = row.active

/-- A row of departments comes back with every column but the sort order. -/
theorem reread_department {raw : RawDepartment} {row row' : departments.ImportRow}
    (hrow : normalize_department int_float raw = .ok row)
    (h : normalize_department int_float (.ofPayload row) = .ok row') : Resorted row row' := by
  obtain ⟨_, hcode, hname, _, hparent⟩ := normalize_department_ok hrow
  obtain ⟨hnumber', hcode', hname', hactive', hparent'⟩ := normalize_department_ok h
  constructor
  · exact hnumber'
  · rw [hcode']
    change Text.strip row.departmentCode = row.departmentCode
    rw [hcode, strip_normalize_text]
  · rw [hname']
    change Text.strip row.departmentName = row.departmentName
    rw [hname, strip_normalize_text]
  · rw [hparent']
    dsimp only at hparent
    split_ifs at hparent with hempty
    · unfold RawDepartment.ofPayload
      dsimp only
      rw [hparent]
      rfl
    · unfold RawDepartment.ofPayload
      dsimp only
      rw [hparent, Option.map_some, Option.getD_some, none_or]
      change (if Text.strip _ = "" then none else some (Text.strip _)) = _
      rw [strip_normalize_text, if_neg hempty]
  · exact hactive'.trans (normalize_status_text row.active)

theorem Resorted.symm {row row' : departments.ImportRow} (h : Resorted row row') : Resorted row' row :=
  ⟨h.number.symm, h.code.symm, h.name.symm, h.parent.symm, h.active.symm⟩

/-- Each row of a list is a row of the other. -/
theorem resorted_of_mem {rows rows' : List departments.ImportRow} {row : departments.ImportRow}
    (h : List.Forall₂ Resorted rows rows') (hrow : row ∈ rows) : ∃ row' ∈ rows', Resorted row row' := by
  induction h with
  | nil => cases hrow
  | @cons first first' rows rows' hfirst _ ih =>
    rcases List.mem_cons.1 hrow with rfl | hrow
    · exact ⟨first', List.mem_cons_self, hfirst⟩
    · obtain ⟨row', hrow', hsame⟩ := ih hrow
      exact ⟨row', List.mem_cons_of_mem _ hrow', hsame⟩

theorem resorted_symm {rows rows' : List departments.ImportRow} (h : List.Forall₂ Resorted rows rows') :
    List.Forall₂ Resorted rows' rows :=
  (h.imp (fun _ _ hrow => hrow.symm)).flip

/-! ## Login ids -/

theorem login_char {c : Char} (h : c ∈ login_chars) : Text.isSpace c = false ∧ c.toLower = c := by
  have hall : login_chars.all (fun c => !Text.isSpace c && decide (c.toLower = c)) = true := by rfl
  have hc := List.all_eq_true.1 hall c h
  rw [Bool.and_eq_true, Bool.not_eq_true', decide_eq_true_eq] at hc
  exact hc

theorem normalized_login_chars (value : Cell) :
    ∀ c ∈ (normalize_login_id value).toList, c ∈ login_chars := by
  intro c hc
  unfold normalize_login_id at hc
  dsimp only at hc
  split_ifs at hc with hall
  · exact of_decide_eq_true (List.all_eq_true.1 hall c hc)
  · simp at hc

theorem normalize_login_again (h : ∀ c ∈ login_id.toList, c ∈ login_chars) :
    normalize_login_id (.text login_id) = login_id := by
  have hstrip : Text.strip login_id = login_id := Text.strip_of_no_space (fun c hc => (login_char (h c hc)).1)
  have hlower : Text.lower login_id = login_id := Text.lower_of_all (fun c hc => (login_char (h c hc)).2)
  unfold normalize_login_id normalize_text
  dsimp only
  rw [hstrip, hlower, if_pos]
  rw [List.all_eq_true]
  intro c hc
  exact decide_eq_true (h c hc)

theorem loginId_normalize_user (raw : RawUser) :
    (normalize_user raw).loginId = normalize_login_id (raw.login_id.or raw.loginId) := by
  simp only [normalize_user]

theorem reread_user (raw : RawUser) :
    normalize_user (.ofPayload (normalize_user raw)) = normalize_user raw := by
  have hlogin := normalize_login_again (normalized_login_chars (raw.login_id.or raw.loginId))
  have htext : ∀ value, normalize_text (.text (normalize_text value)) = normalize_text value :=
    fun value => strip_normalize_text
  unfold normalize_user RawUser.ofPayload
  simp only [none_or, htext, normalize_status_text, hlogin]

/-- The login id by which a row finds a user is the one of the comparison. -/
theorem login_of_found (hkey : login_key user.email = login_id) (hne : login_id ≠ "")
    (hchars : ∀ c ∈ login_id.toList, c ∈ login_chars) : login_of user = login_id := by
  have hword : login_id.toList =
      (user.email.toList.takeWhile (fun x => x != '@')).map Char.toLower := by
    rw [← hkey]
    unfold login_key
    rw [Text.lower_toList, Text.before_toList]
  have hsplit : user.email.toList = user.email.toList.takeWhile (fun x => x != '@') ++
      user.email.toList.dropWhile (fun x => x != '@') := List.takeWhile_append_dropWhile.symm
  have hat : ∀ x ∈ user.email.toList.takeWhile (fun x => x != '@'), (x != '@') = true :=
    fun x hx => List.mem_takeWhile_imp (p := fun x => x != '@') hx
  have hrest : user.email.toList.dropWhile (fun x => x != '@') = [] ∨
      ∃ tail, user.email.toList.dropWhile (fun x => x != '@') = '@' :: tail := by
    cases hdrop : user.email.toList.dropWhile (fun x => x != '@') with
    | nil => exact .inl rfl
    | cons y tail =>
      have hy := List.head_dropWhile_not (fun x => x != '@') (l := user.email.toList) (by simp [hdrop])
      simp only [hdrop, List.head_cons, bne_eq_false_iff_eq] at hy
      exact .inr ⟨tail, by rw [hy]⟩
  generalize user.email.toList.takeWhile (fun x => x != '@') = word at hword hsplit hat
  generalize user.email.toList.dropWhile (fun x => x != '@') = rest at hsplit hrest
  have hspace : ∀ x ∈ word, Text.isSpace x = false := by
    intro x hx
    rw [← Text.isSpace_toLower]
    exact (login_char (hchars _ (hword ▸ List.mem_map_of_mem hx))).1
  have hempty : word ≠ [] := by
    rintro rfl
    rw [List.map_nil] at hword
    exact hne (String.toList_inj.1 hword)
  have hdrop : (word ++ rest).dropWhile Text.isSpace = word ++ rest := by
    cases word with
    | nil => exact absurd rfl hempty
    | cons x word =>
      rw [List.cons_append, List.dropWhile_cons, hspace x List.mem_cons_self]
      rfl
  have hlower : ((fun x => x != '@') ∘ Char.toLower) = fun x : Char => x != '@' := by
    funext x
    have hiff : x.toLower = '@' ↔ x = '@' := by
      rcases Text.toLower_cases x with h | ⟨hlow, hhigh, h⟩
      · rw [h]
      · constructor
        · intro heq
          rw [heq] at h
          have : ('@' : Char).toNat = 64 := rfl
          omega
        · rintro rfl
          rfl
    rw [Function.comp_apply, Bool.eq_iff_iff, bne_iff_ne, bne_iff_ne, ne_eq, ne_eq, hiff]
  apply String.toList_inj.1
  unfold login_of normalize_email
  rw [Text.before_toList, Text.lower_toList, Text.strip_toList, List.takeWhile_map, hlower, hsplit,
    hdrop, Text.takeWhile_rdropWhile hspace hat hrest, hword]

end Rows

/-! ## A stored batch -/

/-- The rows of a batch are normalised. -/
structure Stored (int_float : String → Whole) (batch : Batch) : Prop where
  departments : ∀ row ∈ batch.departments, ∃ raw, normalize_department int_float raw = .ok row
  users : ∀ row ∈ batch.users, ∃ raw, row = normalize_user raw
  scope : ∃ scope : Scope, batch.deactivationScope = scope.text

section Stored

variable {int_float : String → Whole} {d : Directory} {batch : Batch} {analysis : Analysis}
  {actor_email : Option String} {departments : List RawDepartment} {users : List RawUser} {scope : Scope}

theorem stored_of_analysis {validation apply : String}
    (h : analyze_import int_float d departments users actor_email scope = .ok analysis) :
    Stored int_float (batch_of d analysis validation apply) := by
  obtain ⟨hdepartments, husers, _⟩ := analyze_import_ok h
  refine ⟨?_, ?_, analysis.deactivation_scope, rfl⟩
  · intro row hrow
    obtain ⟨raw, _, hraw⟩ := Raise.exists_of_mapM_ok hdepartments hrow
    exact ⟨raw, hraw⟩
  · intro row hrow
    change row ∈ analysis.users at hrow
    rw [husers] at hrow
    obtain ⟨raw, _, heq⟩ := List.mem_map.1 hrow
    exact ⟨raw, heq.symm⟩

theorem normalize_scope_text (scope : Scope) : normalize_deactivation_scope (some scope.text) = scope := by
  cases scope
  · decide
  · decide
  · decide

variable (hstored : Stored int_float batch)
  (h : analyze_batch int_float d batch actor_email = .ok analysis)
include hstored h

theorem reread_users : analysis.users = batch.users := by
  rw [(analyze_batch_ok h).2]
  unfold Batch.user_rows
  refine (List.map_congr_left ?_).trans (List.map_id _)
  intro row hrow
  obtain ⟨raw, rfl⟩ := hstored.users row hrow
  exact reread_user raw

theorem reread_departments : List.Forall₂ Resorted batch.departments analysis.departments := by
  have hrows := (analyze_batch_ok h).1
  have hnormal := hstored.departments
  generalize batch.departments = old at hrows hnormal
  generalize analysis.departments = new at hrows
  induction hrows with
  | nil => exact .nil
  | @cons row row' old new hrow _ ih =>
    obtain ⟨raw, hraw⟩ := hnormal row List.mem_cons_self
    exact .cons (reread_department hraw hrow) (ih (fun r hr => hnormal r (List.mem_cons_of_mem _ hr)))

theorem reread_codes :
    analysis.departments.map (·.departmentCode) = batch.departments.map (·.departmentCode) := by
  have hrows := reread_departments hstored h
  generalize batch.departments = old at hrows
  generalize analysis.departments = new at hrows
  induction hrows with
  | nil => rfl
  | cons hrow _ ih =>
    rw [List.map_cons, List.map_cons, ih, hrow.code]

omit h in
/-- Each login id of a stored batch is made of the allowed characters. -/
theorem stored_login_chars {row : UserRow} (hrow : row ∈ batch.users) :
    ∀ c ∈ row.loginId.toList, c ∈ login_chars := by
  obtain ⟨raw, rfl⟩ := hstored.users row hrow
  rw [loginId_normalize_user]
  exact normalized_login_chars _

end Stored

/-! ## Events -/

/-- What can happen to a batch: besides the calls of the import, any change of the directory. -/
inductive Event
  | validate_upload (batch_id : String) (actor_email : Option String) (workbook : Workbook)
      (deactivation_scope : Option String)
  | apply_batch (actor_email : Option String) (ids : NewIds) (now : Nat)
      (payload : OrgImportApplyRequest)
  | change (directory : Directory)

def batch_step (int_float : String → Whole) (w : World) : Event → Option World
  | .validate_upload batch_id actor_email workbook deactivation_scope =>
    step int_float w (.validate_upload batch_id actor_email workbook deactivation_scope)
  | .apply_batch actor_email ids now payload =>
    step int_float w (.apply_batch actor_email ids now payload)
  | .change directory => some (w.put directory)

def batch_machine (int_float : String → Whole) : Machine World Event where
  Start := fun _ => True
  step := batch_step int_float

section Events

variable {int_float : String → Whole} {w w' : World} {batch_id : String} {shown : Batch}
  {actor_email : Option String} {scope : Option String} {workbook : Workbook} {event : Event}

/-- The batch is as it was shown, or it has been applied. -/
def Kept (batch_id : String) (shown : Batch) (w : World) : Prop :=
  ∃ batch, w.batches.rows batch_id = some batch ∧
    (batch = shown ∨ batch.apply_status = "applied")

theorem Kept.step (h : Kept batch_id shown w) (hstep : batch_step int_float w event = some w') :
    Kept batch_id shown w' := by
  obtain ⟨batch, hbatch, hkept⟩ := h
  cases event with
  | validate_upload new_id actor_email workbook scope =>
    have hdoes : Does int_float w w' (.validate_upload new_id actor_email workbook scope) :=
      step_does hstep
    cases hdoes with
    | validate_upload hnew hok =>
      obtain ⟨_, _, _, _, rfl⟩ := validate_upload_ok hok
      refine ⟨batch, ?_, hkept⟩
      rw [Table.rows_set_ne _ _ _, hbatch]
      rintro rfl
      rw [hnew] at hbatch
      cases hbatch
  | apply_batch actor_email ids now payload =>
    have hdoes : Does int_float w w' (.apply_batch actor_email ids now payload) := step_does hstep
    cases hdoes with
    | apply_batch hfound _ _ _ _ hbatches =>
      unfold Kept
      rw [hbatches]
      by_cases hid : batch_id = payload.batchId
      · subst hid
        exact ⟨_, Table.rows_set_self _ _ _, .inr rfl⟩
      · exact ⟨batch, by rw [Table.rows_set_ne _ _ hid, hbatch], hkept⟩
  | change directory =>
    cases hstep
    exact ⟨batch, hbatch, hkept⟩

theorem Kept.later (h : Kept batch_id shown w) (hlater : (batch_machine int_float).Later w w') :
    Kept batch_id shown w' := by
  induction hlater with
  | refl => exact h
  | next _ hstep ih => exact ih.step hstep

/-- What `validate_upload` stores, for the analysis of the moment. -/
theorem validated (h : (batch_machine int_float).step w
      (.validate_upload batch_id actor_email workbook scope) = some w') :
    ∃ rows analysis, parse_workbook workbook = .ok rows ∧
      analyze_import int_float w.directory rows.1 rows.2 actor_email
        (normalize_deactivation_scope scope) = .ok analysis ∧
      w'.batches.rows batch_id = some (batch_of w.directory analysis
        (if analysis.errors = [] then "passed" else "failed") "pending") := by
  have hdoes : Does int_float w w' (.validate_upload batch_id actor_email workbook scope) := step_does h
  cases hdoes with
  | validate_upload _ hok =>
    obtain ⟨rows, analysis, hrows, hanalysis, rfl⟩ := validate_upload_ok hok
    exact ⟨rows, analysis, hrows, hanalysis, Table.rows_set_self _ _ _⟩

/-- An applied batch is not applied again. -/
theorem applied_once {ids : NewIds} {now : Nat} {payload : OrgImportApplyRequest} {batch : Batch}
    (hbatch : w.batches.rows payload.batchId = some batch) (happlied : batch.apply_status = "applied") :
    (batch_machine int_float).step w (.apply_batch actor_email ids now payload) = none := by
  cases hstep : (batch_machine int_float).step w (.apply_batch actor_email ids now payload) with
  | none => rfl
  | some w' =>
    have hdoes : Does int_float w w' (.apply_batch actor_email ids now payload) := step_does hstep
    cases hdoes with
    | apply_batch hfound _ _ hpassed _ _ =>
      rw [hbatch] at hfound
      cases hfound
      exact absurd happlied hpassed.pending

end Events

end moaworks.org
