-- What each call writes when it succeeds: one user takes a seat, or a whole
-- workbook is placed.
import MoaWorks.DepartmentRuns
import MoaWorks.OrgBatches

namespace moaworks.org

open Raise

/-! ## One user -/

namespace Directory

variable {d d' : Directory} {id k : String} {new next user user' : User}

theorem write_user_ok (h : d.write_user id new = .ok d') : d' = d.put_user id new := by
  unfold write_user at h
  split_ifs at h
  cases h
  rfl

theorem rows_put_user : (d.put_user id new).users.rows k =
    if k = id then some new else d.users.rows k := rfl

/-- A user as another one takes a seat: the head of the same department steps down. -/
def yielding (user next : User) : User :=
  if next.is_department_head = true ∧ user.department_id = next.department_id then
    { user with is_department_head := false }
  else user

/-- What `create_user` and `update_user` write. -/
def seat (d : Directory) (id : String) (next : User) : Directory :=
  (if next.is_department_head then d.clear_heads next.department_id id else d).put_user id next

theorem seat_departments : (d.seat id next).departments = d.departments := by
  unfold seat
  split_ifs
  · rfl
  · rfl

theorem rows_seat_self : (d.seat id next).users.rows id = some next := by
  unfold seat
  rw [rows_put_user, if_pos rfl]

theorem rows_seat_ne (h : k ≠ id) :
    (d.seat id next).users.rows k = (d.users.rows k).map (yielding · next) := by
  unfold seat yielding
  rw [rows_put_user, if_neg h]
  by_cases hhead : next.is_department_head = true
  · simp [hhead, clear_heads, h]
  · simp [hhead]

theorem yielding_status : (yielding user next).status = user.status := by
  unfold yielding
  split_ifs
  · rfl
  · rfl

theorem yielding_user_type : (yielding user next).user_type = user.user_type := by
  unfold yielding
  split_ifs
  · rfl
  · rfl

theorem yielding_department_id : (yielding user next).department_id = user.department_id := by
  unfold yielding
  split_ifs
  · rfl
  · rfl

theorem yielding_head (h : (yielding user next).is_department_head = true) :
    user.is_department_head = true ∧
      ¬ (next.is_department_head = true ∧ user.department_id = next.department_id) := by
  unfold yielding at h
  split_ifs at h with hc
  exact ⟨h, hc⟩

end Directory

section Calls

variable {d d' : Directory} {id : String} {now : Nat}

theorem create_user_ok {payload : UserCreateRequest} (h : create_user d id now payload = .ok d') :
    ∃ email department, d.departments.rows payload.departmentId = some department ∧
      d.email_taken email = false ∧ d' = d.seat id (created_user payload email now) := by
  unfold create_user at h
  simp only [bind_ok] at h
  obtain ⟨login_id, _, department, hdepartment, _, _, _, hemail, hwrite⟩ := h
  exact ⟨_, department, found_ok.1 hdepartment, require_ok.1 hemail, Directory.write_user_ok hwrite⟩

theorem fetch_user_access_row_ok {current : User} (h : d.fetch_user_access_row id = some current) :
    d.users.rows id = some current := by
  unfold Directory.fetch_user_access_row at h
  rw [Option.filter_eq_some_iff] at h
  exact h.1

/-- The guard of the last administrator has let a change of `current` to `next` through. -/
def Let (d : Directory) (current next : User) : Prop :=
  current.user_type = "admin" → next.user_type ≠ "admin" ∨ next.status = .deleted → 1 < d.admin_count

theorem update_user_ok {payload : UserUpdateRequest} (h : update_user d id payload = .ok d') :
    ∃ current department, d.users.rows id = some current ∧
      d.departments.rows (updated_user current payload).department_id = some department ∧
      department.status ≠ .deleted ∧ Let d current (updated_user current payload) ∧
      d' = d.seat id (updated_user current payload) := by
  unfold update_user at h
  simp only [bind_ok] at h
  obtain ⟨current, hcurrent, _, _, department, hdepartment, _, _, _, hliving, _, _, _, hguard,
    hwrite⟩ := h
  refine ⟨current, department, fetch_user_access_row_ok (found_ok.1 hcurrent),
    found_ok.1 hdepartment, require_ok.1 hliving, ?_, Directory.write_user_ok hwrite⟩
  intro hadmin hnext
  by_contra hcount
  exact require_ok.1 hguard ⟨hadmin, hnext, not_lt.1 hcount⟩

theorem delete_user_ok {actor : String} (h : delete_user d actor id = .ok d') :
    ∃ current, d.users.rows id = some current ∧ current.status ≠ .deleted ∧
      Let d current { current with status := .deleted } ∧
      d' = d.put_user id { current with status := .deleted } := by
  unfold delete_user at h
  simp only [bind_ok] at h
  obtain ⟨current, hcurrent, _, _, _, hliving, _, hguard, hwrite⟩ := h
  refine ⟨current, fetch_user_access_row_ok (found_ok.1 hcurrent), require_ok.1 hliving, ?_,
    Directory.write_user_ok hwrite⟩
  intro hadmin _
  by_contra hcount
  exact require_ok.1 hguard ⟨hadmin, not_lt.1 hcount⟩

theorem staffed_iff : d.staffed id = true ↔
    ∃ k user, d.users.rows k = some user ∧ user.department_id = id ∧ user.status ≠ .deleted := by
  unfold Directory.staffed
  rw [decide_eq_true_eq]
  simp only [Finset.Nonempty, Table.mem_select, Bool.and_eq_true, decide_eq_true_eq]

theorem delete_department_ok (h : delete_department d id = .ok d') :
    d.staffed id = false ∧ ∃ current, d.departments.rows id = some current ∧
      d' = { d with departments := d.departments.set id { current with status := .deleted } } := by
  unfold delete_department at h
  simp only [bind_ok] at h
  obtain ⟨remaining, hdelete, hd'⟩ := h
  cases hd'
  obtain ⟨current, hcurrent, rfl, _⟩ := departments.delete_department_ok hdelete
  refine ⟨?_, current, hcurrent, rfl⟩
  unfold departments.delete_department at hdelete
  rw [hcurrent] at hdelete
  dsimp only at hdelete
  split_ifs at hdelete with _ _ _ hstaffed
  exact Bool.eq_false_iff.2 hstaffed

end Calls

/-! ## The users of a workbook -/

section Import

variable {d d' : Directory} {rows : List departments.ImportRow} {users : List UserRow} {ids : NewIds}
  {now : Nat} {row : UserRow} {id login_id : String} {user : User}

theorem mem_existing_users : (id, user) ∈ existing_users d ↔
    d.users.rows id = some user ∧ d.joined user = true := by
  unfold existing_users
  rw [List.mem_filter, Table.mem_orderedBy]

theorem existing_user_ok (h : existing_user d login_id = some (id, user)) :
    d.users.rows id = some user ∧ login_key user.email = login_id ∧ login_id ≠ "" := by
  unfold existing_user at h
  split_ifs at h with hempty
  have hmem := List.mem_of_find?_eq_some h
  rw [List.mem_reverse, mem_existing_users] at hmem
  have hkey := List.find?_some h
  exact ⟨hmem.1, of_decide_eq_true hkey, hempty⟩

/-- The user that a row of the workbook is about. -/
def target (d : Directory) (ids : NewIds) (row : UserRow) : String :=
  match existing_user d row.loginId with
  | some (user_id, _) => user_id
  | none => ids.user row.rowNumber

/-- What the import makes of him. -/
def placed (d : Directory) (now : Nat) (row : UserRow) (department_id role_id : String) : User :=
  match existing_user d row.loginId with
  | some (_, current) => moved_user current row department_id role_id
  | none => imported_user row (row.loginId ++ "@" ++ d.company_domain) department_id role_id now

theorem placed_status {department_id role_id : String} :
    (placed d now row department_id role_id).status = row_status row := by
  unfold placed
  split
  · rfl
  · rfl

theorem placed_department_id {department_id role_id : String} :
    (placed d now row department_id role_id).department_id = department_id := by
  unfold placed
  split
  · rfl
  · rfl

theorem row_status_ne : row_status row ≠ .deleted := by
  unfold row_status
  split_ifs
  · decide
  · decide

/-- What a row of the workbook refers to. -/
structure Resolved (d : Directory) (rows : List departments.ImportRow) (row : UserRow)
    (department : departments.ImportRow) (role_id : String) : Prop where
  department : resolve_department rows row.departmentCode = .ok department
  role : resolve_role d row.roleCode = .ok role_id

theorem place_user_ok {before : Directory} (hdomain : before.company_domain = d.company_domain)
    (hrow : before.users.rows (target d ids row) = d.users.rows (target d ids row))
    (h : place_user d rows ids now before row = .ok d') :
    ∃ department role_id, Resolved d rows row department role_id ∧
      d' = before.put_user (target d ids row)
        (placed d now row (ids.department department.rowNumber) role_id) := by
  unfold place_user at h
  simp only [bind_ok] at h
  obtain ⟨department, hdepartment, role_id, hrole, hwrite⟩ := h
  refine ⟨department, role_id, ⟨hdepartment, hrole⟩, ?_⟩
  unfold target at hrow ⊢
  unfold placed
  cases hexisting : existing_user d row.loginId with
  | none =>
    rw [hexisting] at hwrite
    dsimp only at hwrite
    rw [bind_ok] at hwrite
    obtain ⟨_, _, hwrite⟩ := hwrite
    dsimp only
    rw [Directory.write_user_ok hwrite, hdomain]
  | some entry =>
    obtain ⟨user_id, current⟩ := entry
    rw [hexisting] at hwrite hrow
    dsimp only at hwrite hrow
    rw [hrow, (existing_user_ok hexisting).1] at hwrite
    exact Directory.write_user_ok hwrite

/-- The users after the loop over the rows `users`, when it starts from `before`. -/
structure Placed (d : Directory) (rows : List departments.ImportRow) (ids : NewIds) (now : Nat)
    (users : List UserRow) (before after : Directory) : Prop where
  departments : after.departments = before.departments
  department_codes : after.department_codes = before.department_codes
  roles : after.roles = before.roles
  others : ∀ k, (∀ row ∈ users, target d ids row ≠ k) → after.users.rows k = before.users.rows k
  each : ∀ row ∈ users, ∃ department role_id, Resolved d rows row department role_id ∧
    after.users.rows (target d ids row) =
      some (placed d now row (ids.department department.rowNumber) role_id)

theorem place_users_ok {before after : Directory}
    (h : users.foldlM (place_user d rows ids now) before = .ok after)
    (hdomain : before.company_domain = d.company_domain)
    (hrows : ∀ row ∈ users, before.users.rows (target d ids row) = d.users.rows (target d ids row))
    (hnodup : (users.map (target d ids)).Nodup) :
    Placed d rows ids now users before after := by
  induction users generalizing before with
  | nil =>
    cases h
    exact ⟨rfl, rfl, rfl, fun _ _ => rfl, by simp⟩
  | cons row users ih =>
    rw [List.foldlM_cons, bind_ok] at h
    obtain ⟨middle, hplace, hrest⟩ := h
    rw [List.map_cons, List.nodup_cons] at hnodup
    obtain ⟨department, role_id, hresolved, rfl⟩ :=
      place_user_ok hdomain (hrows row List.mem_cons_self) hplace
    have hne : ∀ other ∈ users, target d ids other ≠ target d ids row := by
      intro other hother heq
      exact hnodup.1 (List.mem_map.2 ⟨other, hother, heq⟩)
    have hkept : ∀ other ∈ users, (before.put_user (target d ids row) (placed d now row
        (ids.department department.rowNumber) role_id)).users.rows (target d ids other) =
        d.users.rows (target d ids other) := by
      intro other hother
      rw [Directory.rows_put_user, if_neg (hne other hother)]
      exact hrows other (List.mem_cons_of_mem _ hother)
    have hlater := ih hrest hdomain hkept hnodup.2
    refine ⟨hlater.departments, hlater.department_codes, hlater.roles, ?_, ?_⟩
    · intro k hk
      rw [hlater.others k (fun other hother => hk other (List.mem_cons_of_mem _ hother)),
        Directory.rows_put_user, if_neg (Ne.symm (hk row List.mem_cons_self))]
    · intro other hother
      rcases List.mem_cons.1 hother with rfl | hother
      · refine ⟨department, role_id, hresolved, ?_⟩
        rw [hlater.others _ hne, Directory.rows_put_user, if_pos rfl]
      · exact hlater.each other hother

/-! ## The new departments -/

/-- `created_department_ids` after the loop over `entries`. -/
def recorded (entries : List (departments.ImportRow × String)) (created : Nat → Option String) :
    Nat → Option String :=
  entries.foldl (fun created entry n => if n = entry.1.rowNumber then some entry.2 else created n)
    created

/-- The department that a row of the sheet makes. -/
def inserted (sheet : List departments.ImportRow) (row : departments.ImportRow)
    (created : Nat → Option String) : departments.Department where
  name := row.departmentName
  parent_id := match departments.parentRow sheet row with
    | .ok (some parentRowNumber) => created parentRowNumber
    | _ => none
  status := if row.active then .active else .inactive
  sort_order := row.sortOrder
  is_default := false

section Departments

variable {sheet : List departments.ImportRow} {entries before after : List (departments.ImportRow × String)}
  {created : Nat → Option String} {table : departments.Departments} {department : departments.ImportRow}

theorem rows_insertRows_old (h : ∀ entry ∈ entries, entry.2 ≠ id) :
    (departments.insertRows sheet entries created table).rows id = table.rows id := by
  induction entries generalizing created table with
  | nil => rfl
  | cons entry rest ih =>
    unfold departments.insertRows
    dsimp only
    rw [ih (fun later hlater => h later (List.mem_cons_of_mem _ hlater)),
      Table.rows_set_ne _ _ (Ne.symm (h entry List.mem_cons_self))]

/-- A parent is known when its row has come before. -/
theorem rows_insertRows_new (hafter : ∀ entry ∈ after, entry.2 ≠ id) :
    (departments.insertRows sheet (before ++ (department, id) :: after) created table).rows id =
      some (inserted sheet department (recorded (before ++ [(department, id)]) created)) := by
  induction before generalizing created table with
  | nil =>
    rw [List.nil_append]
    unfold departments.insertRows
    dsimp only
    rw [rows_insertRows_old hafter, Table.rows_set_self]
    rfl
  | cons entry before ih =>
    rw [List.cons_append]
    unfold departments.insertRows
    dsimp only
    rw [ih]
    rfl

theorem rows_codes_old {codes : Table String String} {entries : List departments.ImportRow}
    (h : ∀ row ∈ entries, ids.department row.rowNumber ≠ id) :
    (entries.foldl (fun codes row => codes.set (ids.department row.rowNumber) row.departmentCode)
      codes).rows id = codes.rows id := by
  induction entries generalizing codes with
  | nil => rfl
  | cons entry rest ih =>
    rw [List.foldl_cons, ih (fun later hlater => h later (List.mem_cons_of_mem _ hlater)),
      Table.rows_set_ne _ _ (Ne.symm (h entry List.mem_cons_self))]

theorem rows_codes_new {codes : Table String String} {entries : List departments.ImportRow}
    (hnodup : (entries.map (fun row => ids.department row.rowNumber)).Nodup)
    (hmem : department ∈ entries) :
    (entries.foldl (fun codes row => codes.set (ids.department row.rowNumber) row.departmentCode)
      codes).rows (ids.department department.rowNumber) = some department.departmentCode := by
  induction entries generalizing codes with
  | nil => cases hmem
  | cons entry rest ih =>
    rw [List.map_cons, List.nodup_cons] at hnodup
    rw [List.foldl_cons]
    rcases List.mem_cons.1 hmem with rfl | hmem
    · rw [rows_codes_old, Table.rows_set_self]
      intro later hlater heq
      exact hnodup.1 (List.mem_map.2 ⟨later, hlater, heq⟩)
    · exact ih hnodup.2 hmem

end Departments

theorem resolve_department_ok {code : String} {department : departments.ImportRow}
    (h : resolve_department rows code = .ok department) :
    department ∈ rows ∧ department.departmentCode = code ∧
      ∀ other ∈ rows, other.departmentCode = code → other = department := by
  unfold resolve_department at h
  split_ifs at h
  split at h
  · cases h
  · rename_i found hfound
    cases h
    have hmem : department ∈ rows.filter (fun row => decide (row.departmentCode = code)) := by
      rw [hfound]
      exact List.mem_singleton_self _
    rw [List.mem_filter, decide_eq_true_eq] at hmem
    refine ⟨hmem.1, hmem.2, ?_⟩
    intro other hother hcode
    have hsame : other ∈ rows.filter (fun row => decide (row.departmentCode = code)) :=
      List.mem_filter.2 ⟨hother, decide_eq_true hcode⟩
    rw [hfound, List.mem_singleton] at hsame
    exact hsame
  · cases h

/-! ## Users without issues -/

/-- What the rows of users are when the analysis reports no errors. -/
structure Sound (d : Directory) (users : List UserRow) : Prop where
  logins : (users.map (·.loginId)).Nodup
  named : ∀ row ∈ users, row.loginId ≠ ""
  no_admin : ∀ row ∈ users, ∀ id user, existing_user d row.loginId = some (id, user) →
    user.user_type ≠ "admin"

theorem user_issues_nil {seen : List String} (h : user_issues d rows seen row = []) :
    row.loginId ≠ "" ∧ row.loginId ∉ seen ∧
      ∀ id user, existing_user d row.loginId = some (id, user) → user.user_type ≠ "admin" := by
  unfold user_issues at h
  simp only [List.append_eq_nil_iff] at h
  obtain ⟨⟨⟨⟨⟨hlogin, _⟩, _⟩, _⟩, _⟩, hadmin⟩ := h
  unfold login_issues at hlogin
  split_ifs at hlogin with hempty hseen
  refine ⟨hempty, hseen, ?_⟩
  intro id user hexisting htype
  unfold admin_issues at hadmin
  rw [hexisting] at hadmin
  simp [htype] at hadmin

theorem users_issues_nil {seen : List String} (h : users_issues d rows seen users = []) :
    Sound d users ∧ ∀ row ∈ users, row.loginId ∉ seen := by
  induction users generalizing seen with
  | nil => exact ⟨⟨by simp, by simp, by simp⟩, by simp⟩
  | cons row users ih =>
    unfold users_issues at h
    rw [List.append_eq_nil_iff] at h
    obtain ⟨hempty, hseen, hadmin⟩ := user_issues_nil h.1
    obtain ⟨hsound, hlater⟩ := ih h.2
    refine ⟨⟨?_, ?_, ?_⟩, ?_⟩
    · rw [List.map_cons, List.nodup_cons]
      refine ⟨?_, hsound.logins⟩
      intro hmem
      obtain ⟨other, hother, heq⟩ := List.mem_map.1 hmem
      exact hlater other hother (heq ▸ List.mem_cons_self)
    · intro other hother
      rcases List.mem_cons.1 hother with rfl | hother
      · exact hempty
      · exact hsound.named other hother
    · intro other hother
      rcases List.mem_cons.1 hother with rfl | hother
      · exact hadmin
      · exact hsound.no_admin other hother
    · intro other hother
      rcases List.mem_cons.1 hother with rfl | hother
      · exact hseen
      · exact fun hmem => hlater other hother (List.mem_cons_of_mem _ hmem)

/-! ## Users who are missing from the file -/

/-- A user whom the comparison wants to deactivate. -/
structure Missing (d : Directory) (scope : Scope) (login_ids codes : List String) (actor_email : String)
    (user : User) : Prop where
  living : user.status ≠ .deleted ∧ user.status ≠ .inactive
  absent : login_of user ∉ login_ids
  comparing : scope ≠ .none
  uploaded : scope = .uploaded_departments_only → in_uploaded_departments d codes user = true
  unprotected : is_protected_account user actor_email = false
  verification : scope = .uploaded_departments_only → is_verification_account (login_of user) = true

theorem compare_deactivate {scope : Scope} {login_ids codes : List String} {actor_email reason : String}
    (h : compare d scope login_ids codes actor_email user = .deactivate reason) :
    Missing d scope login_ids codes actor_email user := by
  unfold compare at h
  split_ifs at h with hstatus habsent hscope hprotected hverification
  rw [not_or] at hstatus hscope
  refine ⟨hstatus, habsent, hscope.1, ?_, Bool.eq_false_iff.2 hprotected, ?_⟩
  · intro heq
    rw [not_and, Bool.not_eq_false] at hscope
    exact hscope.2 heq
  · intro heq
    rw [not_and, Bool.not_eq_false] at hverification
    exact hverification heq

theorem mem_to_deactivate {comparison : User → Comparison} {listed : Listed} :
    listed ∈ (existing_users d).filterMap (to_deactivate comparison) ↔
      (listed.id, listed.user) ∈ existing_users d ∧
        comparison listed.user = .deactivate listed.reason := by
  rw [List.mem_filterMap]
  constructor
  · rintro ⟨⟨id, user⟩, hexisting, hto⟩
    unfold to_deactivate at hto
    split at hto
    · rename_i reason hcompare
      cases hto
      exact ⟨hexisting, hcompare⟩
    · cases hto
  · rintro ⟨hexisting, hcompare⟩
    refine ⟨_, hexisting, ?_⟩
    unfold to_deactivate
    dsimp only
    rw [hcompare]

/-! ## New ids -/

/-- The ids of one call are new, and no two are the same. -/
structure NewIds.Fresh (ids : NewIds) (d : Directory) (rows : List departments.ImportRow)
    (users : List UserRow) : Prop where
  departments : ∀ row ∈ rows, departments.fresh d.departments (ids.department row.rowNumber) = true
  distinct_departments : (rows.map (fun row => ids.department row.rowNumber)).Nodup
  unused : ∀ row ∈ users, d.users.rows (ids.user row.rowNumber) = none
  distinct_users : (users.map (fun row => ids.user row.rowNumber)).Nodup

/-- The ids go by the numbers of the rows. -/
theorem NewIds.Fresh.renumbered {rows' : List departments.ImportRow} (h : ids.Fresh d rows users)
    (hrows : rows'.map (·.rowNumber) = rows.map (·.rowNumber)) : ids.Fresh d rows' users := by
  have hids : rows'.map (fun row => ids.department row.rowNumber) =
      rows.map (fun row => ids.department row.rowNumber) := by
    have hmap := congrArg (List.map ids.department) hrows
    rw [List.map_map, List.map_map] at hmap
    exact hmap
  refine ⟨?_, ?_, h.unused, h.distinct_users⟩
  · intro row hrow
    have hmem : row.rowNumber ∈ rows.map (·.rowNumber) := by
      rw [← hrows]
      exact List.mem_map.2 ⟨row, hrow, rfl⟩
    obtain ⟨old, hold, heq⟩ := List.mem_map.1 hmem
    rw [← heq]
    exact h.departments old hold
  · rw [hids]
    exact h.distinct_departments

/-- Each row is about a user of its own. -/
theorem targets_nodup (hsound : Sound d users) (hfresh : ids.Fresh d rows users) :
    (users.map (target d ids)).Nodup := by
  rw [List.nodup_map_iff_inj_on (List.Nodup.of_map _ hsound.logins)]
  intro row hrow other hother heq
  unfold target at heq
  cases hexisting : existing_user d row.loginId with
  | none =>
    rw [hexisting] at heq
    cases hother' : existing_user d other.loginId with
    | none =>
      rw [hother'] at heq
      exact List.inj_on_of_nodup_map hfresh.distinct_users hrow hother heq
    | some entry =>
      rw [hother'] at heq
      dsimp only at heq
      have hnone := hfresh.unused row hrow
      rw [heq, (existing_user_ok hother').1] at hnone
      cases hnone
  | some entry =>
    rw [hexisting] at heq
    cases hother' : existing_user d other.loginId with
    | none =>
      rw [hother'] at heq
      dsimp only at heq
      have hnone := hfresh.unused other hother
      rw [← heq, (existing_user_ok hexisting).1] at hnone
      cases hnone
    | some entry' =>
      rw [hother'] at heq
      dsimp only at heq
      obtain ⟨hfound, hkey, _⟩ := existing_user_ok hexisting
      obtain ⟨hfound', hkey', _⟩ := existing_user_ok hother'
      rw [heq, hfound', Option.some.injEq] at hfound
      rw [← hfound] at hkey
      exact List.inj_on_of_nodup_map hsound.logins hrow hother (hkey.symm.trans hkey')

/-! ## The whole import -/

/-- The users after the deactivations. -/
theorem rows_deactivated {listed : List Listed} {k : String} :
    (listed.foldl (fun d listed => d.deactivate_user listed.id) d).users.rows k =
      (d.users.rows k).map (fun user =>
        if k ∈ listed.map (·.id) then { user with status := .inactive } else user) := by
  induction listed generalizing d with
  | nil => simp
  | cons first rest ih =>
    rw [List.foldl_cons, ih]
    unfold Directory.deactivate_user
    rw [Table.rows_update, Option.map_map]
    congr 1
    funext user
    by_cases hfirst : k = first.id
    · simp [hfirst]
    · simp [hfirst]

theorem deactivated_tables {listed : List Listed} :
    (listed.foldl (fun d listed => d.deactivate_user listed.id) d).departments = d.departments ∧
      (listed.foldl (fun d listed => d.deactivate_user listed.id) d).department_codes =
        d.department_codes := by
  induction listed generalizing d with
  | nil => exact ⟨rfl, rfl⟩
  | cons first rest ih => exact ih

/-- What a successful import leaves. -/
structure Imported (d : Directory) (analysis : Analysis) (ids : NewIds) (now : Nat) (d' : Directory) :
    Prop where
  departments : d'.departments = departments.insertRows analysis.departments
    (analysis.departments.map (fun row => (row, ids.department row.rowNumber))) (fun _ => none)
    (departments.deactivate d.departments)
  department_codes : d'.department_codes = analysis.departments.foldl
    (fun codes row => codes.set (ids.department row.rowNumber) row.departmentCode) d.department_codes
  others : ∀ k, (∀ row ∈ analysis.users, target d ids row ≠ k) → d'.users.rows k =
    (d.users.rows k).map (fun user =>
      if k ∈ analysis.users_to_deactivate.map (·.id) then { user with status := .inactive } else user)
  each : ∀ row ∈ analysis.users, ∃ department role_id,
    Resolved d analysis.departments row department role_id ∧
    d'.users.rows (target d ids row) = some
      (if target d ids row ∈ analysis.users_to_deactivate.map (·.id) then
        { placed d now row (ids.department department.rowNumber) role_id with status := .inactive }
      else placed d now row (ids.department department.rowNumber) role_id)

theorem write_import_ok {analysis : Analysis} (hnodup : (analysis.users.map (target d ids)).Nodup)
    (h : write_import d analysis ids now = .ok d') : Imported d analysis ids now d' := by
  unfold write_import at h
  simp only [bind_ok] at h
  obtain ⟨built, hbuilt, after, hplaced, hd'⟩ := h
  cases hd'
  unfold insert_departments at hbuilt
  rw [bind_ok] at hbuilt
  obtain ⟨_, _, hbuilt⟩ := hbuilt
  cases hbuilt
  have hplaced := place_users_ok hplaced rfl (fun _ _ => rfl) hnodup
  refine ⟨?_, ?_, ?_, ?_⟩
  · rw [deactivated_tables.1, hplaced.departments]
  · rw [deactivated_tables.2, hplaced.department_codes]
  · intro k hk
    rw [rows_deactivated, hplaced.others k hk]
  · intro row hrow
    obtain ⟨department, role_id, hresolved, hafter⟩ := hplaced.each row hrow
    refine ⟨department, role_id, hresolved, ?_⟩
    rw [rows_deactivated, hafter, Option.map_some]

end Import

/-! ## Batches -/

section Batches

variable {int_float : String → Whole} {w w' : World} {actor_email : Option String} {ids : NewIds}
  {now : Nat} {payload : OrgImportApplyRequest}

/-- The checks that a batch has passed when it is applied. -/
structure Passed (w : World) (batch : Batch) (analysis : Analysis) (payload : OrgImportApplyRequest) :
    Prop where
  pending : batch.apply_status ≠ "applied"
  errors : analysis.errors = []
  shown : same_preview_targets batch.usersToDeactivate
    (deactivation_preview_rows w.directory analysis.users_to_deactivate) = true
  unprotected : analysis.protected_users = []
  confirmed : analysis.users_to_deactivate = [] ∨ confirmed analysis.deactivation_scope payload = true

theorem apply_batch_ok (h : apply_batch int_float w actor_email ids now payload = .ok w') :
    ∃ batch analysis, w.batches.rows payload.batchId = some batch ∧
      analyze_batch int_float w.directory batch actor_email = .ok analysis ∧
      Passed w batch analysis payload ∧
      write_import w.directory analysis ids now = .ok w'.directory ∧
      w'.batches = w.batches.set payload.batchId
        (batch_of w.directory analysis batch.validation_status "applied") := by
  unfold apply_batch at h
  simp only [bind_ok] at h
  obtain ⟨batch, hbatch, _, hpending, analysis, hanalysis, _, herrors, _, hshown, _, hprotected, _,
    hconfirmed, written, hwritten, hw'⟩ := h
  cases hw'
  refine ⟨batch, analysis, found_ok.1 hbatch, hanalysis, ?_, hwritten, rfl⟩
  refine ⟨require_ok.1 hpending, require_ok.1 herrors, (require_ok.1 hshown).1, ?_, ?_⟩
  · exact List.map_eq_nil_iff.1 (require_ok.1 hprotected)
  · exact (require_ok.1 hconfirmed).imp_left List.map_eq_nil_iff.1

/-- The rows of users as the analysis of a stored batch reads them. -/
def Batch.user_rows (batch : Batch) : List UserRow :=
  batch.users.map (fun row => normalize_user (.ofPayload row))

theorem analyze_import_ok {d : Directory} {departments : List RawDepartment} {users : List RawUser}
    {scope : Scope} {analysis : Analysis}
    (h : analyze_import int_float d departments users actor_email scope = .ok analysis) :
    departments.mapM (normalize_department int_float) = .ok analysis.departments ∧
      analysis.users = users.map normalize_user ∧
      analysis.deactivation_scope = scope ∧
      analysis.users_to_deactivate = (existing_users d).filterMap (to_deactivate (compare d scope
        ((analysis.users.map (·.loginId)).filter (fun id => decide (id ≠ "")))
        ((analysis.departments.map (·.departmentCode)).filter (fun code => decide (code ≠ "")))
        (actor_address actor_email))) ∧
      analysis.errors = analysis.departments.flatMap department_issues ++
        analysis.departments.flatMap (parent_issues analysis.departments) ++
        users_issues d analysis.departments [] analysis.users := by
  unfold analyze_import at h
  rw [bind_ok] at h
  obtain ⟨normalized, hnormalized, hanalysis⟩ := h
  cases hanalysis
  exact ⟨hnormalized, rfl, rfl, rfl, rfl⟩

/-- The login ids of the rows of an analysis. -/
def Analysis.login_ids (analysis : Analysis) : List String :=
  (analysis.users.map (·.loginId)).filter (fun id => decide (id ≠ ""))

/-- Its department codes. -/
def Analysis.codes (analysis : Analysis) : List String :=
  (analysis.departments.map (·.departmentCode)).filter (fun code => decide (code ≠ ""))

/-- The users that the analysis of a stored batch wants to deactivate. -/
theorem analyzed_missing {d : Directory} {batch : Batch} {analysis : Analysis} {listed : Listed}
    (h : analyze_batch int_float d batch actor_email = .ok analysis)
    (hlisted : listed ∈ analysis.users_to_deactivate) :
    d.users.rows listed.id = some listed.user ∧
      Missing d analysis.deactivation_scope analysis.login_ids analysis.codes
        (actor_address actor_email) listed.user := by
  obtain ⟨_, _, hscope, hlist, _⟩ := analyze_import_ok h
  rw [hlist, mem_to_deactivate] at hlisted
  refine ⟨(mem_existing_users.1 hlisted.1).1, ?_⟩
  rw [hscope]
  exact compare_deactivate hlisted.2

theorem normalize_department_ok {raw : RawDepartment} {row : departments.ImportRow}
    (h : normalize_department int_float raw = .ok row) :
    row.rowNumber = raw.rowNumber ∧
      row.departmentCode = normalize_text (raw.department_code.or raw.departmentCode) ∧
      row.departmentName = normalize_text (raw.department_name.or raw.departmentName) ∧
      row.active = normalize_status raw.status ∧
      row.parentDepartmentCode =
        let code := normalize_text (raw.parent_department_code.or raw.parentDepartmentCode)
        if code = "" then none else some code := by
  unfold normalize_department at h
  rw [bind_ok] at h
  obtain ⟨_, _, hrow⟩ := h
  cases hrow
  exact ⟨rfl, rfl, rfl, rfl, rfl⟩

/-- What the analysis of a stored batch takes from it. -/
theorem analyze_batch_ok {d : Directory} {batch : Batch} {analysis : Analysis}
    (h : analyze_batch int_float d batch actor_email = .ok analysis) :
    List.Forall₂ (fun row row' => normalize_department int_float (.ofPayload row) = .ok row')
      batch.departments analysis.departments ∧ analysis.users = batch.user_rows := by
  obtain ⟨hdepartments, husers, _⟩ := analyze_import_ok h
  refine ⟨List.forall₂_map_left_iff.1 (mapM_ok hdepartments), ?_⟩
  rw [husers, List.map_map]
  rfl

theorem analyzed_row_numbers {d : Directory} {batch : Batch} {analysis : Analysis}
    (h : analyze_batch int_float d batch actor_email = .ok analysis) :
    analysis.departments.map (·.rowNumber) = batch.departments.map (·.rowNumber) := by
  have hrows := (analyze_batch_ok h).1
  generalize batch.departments = old at hrows
  generalize analysis.departments = new at hrows
  induction hrows with
  | nil => rfl
  | cons hrow _ ih => rw [List.map_cons, List.map_cons, ih, (normalize_department_ok hrow).1]; rfl

theorem sound_of_passed {d : Directory} {batch : Batch} {analysis : Analysis}
    (h : analyze_batch int_float d batch actor_email = .ok analysis) (herrors : analysis.errors = []) :
    Sound d analysis.users := by
  obtain ⟨_, _, _, _, hissues⟩ := analyze_import_ok h
  rw [hissues, List.append_eq_nil_iff] at herrors
  exact (users_issues_nil herrors.2).1

/-- An applied batch, with the directory that it leaves. -/
theorem applied {d' : Directory} {batch : Batch} {analysis : Analysis}
    (hanalysis : analyze_batch int_float w.directory batch actor_email = .ok analysis)
    (herrors : analysis.errors = [])
    (hfresh : ids.Fresh w.directory batch.departments batch.user_rows)
    (h : write_import w.directory analysis ids now = .ok d') :
    Imported w.directory analysis ids now d' := by
  apply write_import_ok _ h
  apply targets_nodup (sound_of_passed hanalysis herrors)
  rw [(analyze_batch_ok hanalysis).2]
  exact hfresh.renumbered (analyzed_row_numbers hanalysis)

end Batches

end moaworks.org
