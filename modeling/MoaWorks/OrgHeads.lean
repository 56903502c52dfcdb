-- One head for each department, and no user in a deleted department: what
-- each call keeps, and the two calls that can break it.
import MoaWorks.OrgRuns

namespace moaworks.org

/-! ## The invariant -/

structure Headed (d : Directory) : Prop where
  one_head : ∀ id other user user', d.users.rows id = some user → d.users.rows other = some user' →
    user.status ≠ .deleted → user'.status ≠ .deleted → user.is_department_head = true →
    user'.is_department_head = true → user.department_id = user'.department_id → id = other
  living : ∀ id user, d.users.rows id = some user → user.status ≠ .deleted →
    ∃ department, d.departments.rows user.department_id = some department ∧
      department.status ≠ .deleted

def heads_machine (int_float : String → Whole) : Machine World Action where
  Start := fun w => Headed w.directory
  step := step int_float

/-- The user whom an uploaded row moves is a head. -/
def MovesHead (d : Directory) (row : UserRow) : Prop :=
  ∃ id user, existing_user d row.loginId = some (id, user) ∧ user.is_department_head = true

/-- What a step must not do: to create a user in a deleted department, or to
move two heads to one department. -/
def Seats (w : World) : Action → Prop
  | .create_user _ _ payload => payload.status = .deleted ∨ ∀ department,
      w.directory.departments.rows payload.departmentId = some department →
      department.status ≠ .deleted
  | .apply_batch _ _ _ payload => ∀ batch, w.batches.rows payload.batchId = some batch →
      ∀ row ∈ batch.user_rows, ∀ other ∈ batch.user_rows, row.departmentCode = other.departmentCode →
        MovesHead w.directory row → MovesHead w.directory other → row = other
  | _ => True

section OneUser

variable {d : Directory} {id : String} {next : User} {department : departments.Department}

/-- A user who takes a seat: everybody else of his department steps down. -/
theorem Headed.seat_iff (h : Headed d) (hdepartment : d.departments.rows next.department_id = some department) :
    Headed (d.seat id next) ↔ next.status = .deleted ∨ department.status ≠ .deleted := by
  constructor
  · intro hnext
    by_contra hdeleted
    rw [not_or, not_not] at hdeleted
    obtain ⟨found, hfound, hliving⟩ := hnext.living id next Directory.rows_seat_self hdeleted.1
    rw [Directory.seat_departments, hdepartment] at hfound
    cases hfound
    exact hliving hdeleted.2
  · intro hplace
    constructor
    · intro a b user user' ha hb hliving hliving' hhead hhead' hsame
      by_cases haid : a = id
      · by_cases hbid : b = id
        · rw [haid, hbid]
        · rw [haid, Directory.rows_seat_self] at ha
          rw [Directory.rows_seat_ne hbid, Option.map_eq_some_iff] at hb
          obtain ⟨old, _, rfl⟩ := hb
          cases ha
          rw [Directory.yielding_department_id] at hsame
          exact absurd ⟨hhead, hsame.symm⟩ (Directory.yielding_head hhead').2
      · rw [Directory.rows_seat_ne haid, Option.map_eq_some_iff] at ha
        obtain ⟨old, hold, rfl⟩ := ha
        rw [Directory.yielding_department_id] at hsame
        rw [Directory.yielding_status] at hliving
        by_cases hbid : b = id
        · rw [hbid, Directory.rows_seat_self] at hb
          cases hb
          exact absurd ⟨hhead', hsame⟩ (Directory.yielding_head hhead).2
        · rw [Directory.rows_seat_ne hbid, Option.map_eq_some_iff] at hb
          obtain ⟨old', hold', rfl⟩ := hb
          rw [Directory.yielding_department_id] at hsame
          rw [Directory.yielding_status] at hliving'
          exact h.one_head a b old old' hold hold' hliving hliving' (Directory.yielding_head hhead).1
            (Directory.yielding_head hhead').1 hsame
    · intro a user ha hliving
      rw [Directory.seat_departments]
      by_cases haid : a = id
      · rw [haid, Directory.rows_seat_self] at ha
        cases ha
        exact ⟨department, hdepartment, hplace.resolve_left hliving⟩
      · rw [Directory.rows_seat_ne haid, Option.map_eq_some_iff] at ha
        obtain ⟨old, hold, rfl⟩ := ha
        rw [Directory.yielding_status] at hliving
        rw [Directory.yielding_department_id]
        exact h.living a old hold hliving

/-- A deleted user is no head, and needs no department. -/
theorem Headed.put_deleted (h : Headed d) (hdeleted : next.status = .deleted) :
    Headed (d.put_user id next) := by
  have hold : ∀ a user, (d.put_user id next).users.rows a = some user → user.status ≠ .deleted →
      d.users.rows a = some user := by
    intro a user ha hliving
    rw [Directory.rows_put_user] at ha
    split_ifs at ha
    · cases ha
      exact absurd hdeleted hliving
    · exact ha
  constructor
  · intro a b user user' ha hb hliving hliving' hhead hhead' hsame
    exact h.one_head a b user user' (hold a user ha hliving) (hold b user' hb hliving') hliving
      hliving' hhead hhead' hsame
  · intro a user ha hliving
    exact h.living a user (hold a user ha hliving) hliving

/-- Departments may change as long as those with users stay alive. -/
theorem Headed.put_departments {table : departments.Departments} (h : Headed d)
    (hkept : ∀ k department, d.departments.rows k = some department → department.status ≠ .deleted →
      d.staffed k = true → ∃ department', table.rows k = some department' ∧
        department'.status ≠ .deleted) : Headed (d.put_departments table) := by
  refine ⟨h.one_head, ?_⟩
  intro a user ha hliving
  obtain ⟨department, hdepartment, halive⟩ := h.living a user ha hliving
  exact hkept _ department hdepartment halive (staffed_iff.2 ⟨a, user, ha, rfl, hliving⟩)

end OneUser

/-! ## The import -/

section Import

variable {int_float : String → Whole} {d d' : Directory} {analysis : Analysis} {ids : NewIds}
  {now : Nat} {actor_email : Option String} {batch : Batch} {k : String} {user : User}

/-- What the proofs need of an applied batch. -/
structure Applied (d : Directory) (analysis : Analysis) (ids : NewIds) (now : Nat) (d' : Directory) :
    Prop where
  fresh : ids.Fresh d analysis.departments analysis.users
  sound : Sound d analysis.users
  imported : Imported d analysis ids now d'
  missing : ∀ listed ∈ analysis.users_to_deactivate,
    d.users.rows listed.id = some listed.user ∧ listed.user.status ≠ .deleted

theorem applied_of (hanalysis : analyze_batch int_float d batch actor_email = .ok analysis)
    (herrors : analysis.errors = []) (hfresh : ids.Fresh d batch.departments batch.user_rows)
    (himported : Imported d analysis ids now d') : Applied d analysis ids now d' := by
  obtain ⟨_, husers⟩ := analyze_batch_ok hanalysis
  refine ⟨?_, sound_of_passed hanalysis herrors, himported, ?_⟩
  · rw [husers]
    exact hfresh.renumbered (analyzed_row_numbers hanalysis)
  · intro listed hlisted
    obtain ⟨hrow, hmissing⟩ := analyzed_missing hanalysis hlisted
    exact ⟨hrow, hmissing.living.1⟩

namespace Applied

variable (h : Applied d analysis ids now d')
include h

/-- A user whom no row is about keeps his department and his flag. -/
theorem other_row (hk : ∀ row ∈ analysis.users, target d ids row ≠ k)
    (huser : d'.users.rows k = some user) :
    ∃ old, d.users.rows k = some old ∧ user.department_id = old.department_id ∧
      user.is_department_head = old.is_department_head ∧
      (user.status ≠ .deleted ↔ old.status ≠ .deleted) := by
  rw [h.imported.others k hk, Option.map_eq_some_iff] at huser
  obtain ⟨old, hold, rfl⟩ := huser
  refine ⟨old, hold, ?_⟩
  split_ifs with hmem
  · obtain ⟨listed, hlisted, hid⟩ := List.mem_map.1 hmem
    obtain ⟨hrow, hliving⟩ := h.missing listed hlisted
    rw [hid, hold, Option.some.injEq] at hrow
    rw [← hrow] at hliving
    exact ⟨rfl, rfl, by simp [hliving]⟩
  · exact ⟨rfl, rfl, Iff.rfl⟩

/-- A user whom a row is about stands in the new department of the row. -/
theorem target_row {row : UserRow} (hrow : row ∈ analysis.users) :
    ∃ user department role_id, Resolved d analysis.departments row department role_id ∧
      d'.users.rows (target d ids row) = some user ∧
      user.department_id = ids.department department.rowNumber ∧ user.status ≠ .deleted ∧
      (user.is_department_head = true ↔ MovesHead d row) := by
  obtain ⟨department, role_id, hresolved, huser⟩ := h.imported.each row hrow
  have hhead : (placed d now row (ids.department department.rowNumber) role_id).is_department_head =
      true ↔ MovesHead d row := by
    unfold MovesHead placed
    cases hexisting : existing_user d row.loginId with
    | none => simp [imported_user]
    | some entry =>
      obtain ⟨id, current⟩ := entry
      simp [moved_user]
  refine ⟨_, department, role_id, hresolved, huser, ?_, ?_, ?_⟩
  · split_ifs
    · exact placed_department_id
    · exact placed_department_id
  · split_ifs
    · simp
    · rw [placed_status]
      exact row_status_ne
  · split_ifs
    · exact hhead
    · exact hhead

/-- The department of a row, with the parents known from the rows up to it. -/
theorem new_department {first rest : List departments.ImportRow} {department : departments.ImportRow}
    (hsplit : analysis.departments = first ++ department :: rest) :
    d'.departments.rows (ids.department department.rowNumber) =
      some (inserted analysis.departments department (recorded
        ((first ++ [department]).map (fun row => (row, ids.department row.rowNumber)))
        (fun _ => none))) := by
  have hnodup := h.fresh.distinct_departments
  rw [hsplit, List.map_append, List.map_cons, List.nodup_append] at hnodup
  have hrest := (List.nodup_cons.1 hnodup.2.1).1
  rw [h.imported.departments]
  generalize hsheet : analysis.departments = sheet
  rw [hsheet] at hsplit
  have hentries : sheet.map (fun row => (row, ids.department row.rowNumber)) =
      first.map (fun row => (row, ids.department row.rowNumber)) ++
        (department, ids.department department.rowNumber) ::
          rest.map (fun row => (row, ids.department row.rowNumber)) := by
    rw [hsplit, List.map_append, List.map_cons]
  rw [hentries, rows_insertRows_new, List.map_append, List.map_cons, List.map_nil]
  intro entry hentry heq
  obtain ⟨row, hrow, rfl⟩ := List.mem_map.1 hentry
  exact hrest (List.mem_map.2 ⟨row, hrow, heq⟩)

theorem old_department {department : departments.Department} (hrow : d.departments.rows k = some department) :
    d'.departments.rows k = (departments.deactivate d.departments).rows k := by
  rw [h.imported.departments]
  apply rows_insertRows_old
  rintro entry hentry rfl
  obtain ⟨row, hmem, rfl⟩ := List.mem_map.1 hentry
  rw [(departments.fresh_iff.1 (h.fresh.departments row hmem)).2.1] at hrow
  cases hrow

theorem department_eq {department other : departments.ImportRow} (hmem : department ∈ analysis.departments)
    (hother : other ∈ analysis.departments)
    (heq : ids.department department.rowNumber = ids.department other.rowNumber) :
    department = other :=
  List.inj_on_of_nodup_map h.fresh.distinct_departments hmem hother heq

/-- The new departments are not those of anybody else. -/
theorem new_ne_old {department : departments.ImportRow} (hmem : department ∈ analysis.departments)
    {old : departments.Department} (hold : d.departments.rows k = some old) :
    ids.department department.rowNumber ≠ k := by
  rintro rfl
  rw [(departments.fresh_iff.1 (h.fresh.departments department hmem)).2.1] at hold
  cases hold

theorem headed (hheaded : Headed d)
    (hone : ∀ row ∈ analysis.users, ∀ other ∈ analysis.users,
      row.departmentCode = other.departmentCode → MovesHead d row → MovesHead d other → row = other) :
    Headed d' := by
  constructor
  · intro a b user user' ha hb hliving hliving' hhead hhead' hsame
    by_cases haimed : ∃ row ∈ analysis.users, target d ids row = a
    · obtain ⟨row, hrow, rfl⟩ := haimed
      obtain ⟨found, department, _, hresolved, hfound, hid, _, hmoves⟩ := h.target_row hrow
      rw [hfound] at ha
      cases ha
      obtain ⟨hmem, hcode, _⟩ := resolve_department_ok hresolved.department
      by_cases hbimed : ∃ other ∈ analysis.users, target d ids other = b
      · obtain ⟨other, hother, rfl⟩ := hbimed
        obtain ⟨found', department', _, hresolved', hfound', hid', _, hmoves'⟩ := h.target_row hother
        rw [hfound'] at hb
        cases hb
        obtain ⟨hmem', hcode', _⟩ := resolve_department_ok hresolved'.department
        rw [hid, hid'] at hsame
        rw [h.department_eq hmem hmem' hsame] at hcode
        rw [hone row hrow other hother (hcode.symm.trans hcode') (hmoves.1 hhead)
          (hmoves'.1 hhead')]
      · push Not at hbimed
        obtain ⟨old, hold, hdepartment, _, hstatus⟩ := h.other_row hbimed hb
        obtain ⟨living, hlive, _⟩ := hheaded.living b old hold (hstatus.1 hliving')
        rw [hid, hdepartment] at hsame
        exact absurd hsame (h.new_ne_old hmem hlive)
    · push Not at haimed
      obtain ⟨old, hold, hdepartment, hflag, hstatus⟩ := h.other_row haimed ha
      by_cases hbimed : ∃ other ∈ analysis.users, target d ids other = b
      · obtain ⟨other, hother, rfl⟩ := hbimed
        obtain ⟨found', department', _, hresolved', hfound', hid', _, _⟩ := h.target_row hother
        rw [hfound'] at hb
        cases hb
        obtain ⟨hmem', _, _⟩ := resolve_department_ok hresolved'.department
        obtain ⟨living, hlive, _⟩ := hheaded.living a old hold (hstatus.1 hliving)
        rw [hid', hdepartment] at hsame
        exact absurd hsame.symm (h.new_ne_old hmem' hlive)
      · push Not at hbimed
        obtain ⟨old', hold', hdepartment', hflag', hstatus'⟩ := h.other_row hbimed hb
        rw [hdepartment, hdepartment'] at hsame
        exact hheaded.one_head a b old old' hold hold' (hstatus.1 hliving) (hstatus'.1 hliving')
          (hflag ▸ hhead) (hflag' ▸ hhead') hsame
  · intro a user ha hliving
    by_cases haimed : ∃ row ∈ analysis.users, target d ids row = a
    · obtain ⟨row, hrow, rfl⟩ := haimed
      obtain ⟨found, department, _, hresolved, hfound, hid, _, _⟩ := h.target_row hrow
      rw [hfound] at ha
      cases ha
      obtain ⟨first, rest, hsplit⟩ :=
        List.append_of_mem (resolve_department_ok hresolved.department).1
      rw [hid]
      refine ⟨_, h.new_department hsplit, ?_⟩
      unfold inserted
      dsimp only
      split_ifs
      · simp
      · simp
    · push Not at haimed
      obtain ⟨old, hold, hdepartment, _, hstatus⟩ := h.other_row haimed ha
      obtain ⟨department, hrow, hlive⟩ := hheaded.living a old hold (hstatus.1 hliving)
      rw [hdepartment, h.old_department hrow, departments.deactivate_rows, hrow]
      refine ⟨_, rfl, ?_⟩
      dsimp only
      split_ifs
      · simp
      · exact hlive

/-- Two heads of one department code would be two heads of the new department. -/
theorem one_of_headed (hheaded : Headed d') : ∀ row ∈ analysis.users, ∀ other ∈ analysis.users,
    row.departmentCode = other.departmentCode → MovesHead d row → MovesHead d other → row = other := by
  intro row hrow other hother hcode hmoves hmoves'
  obtain ⟨user, department, _, hresolved, huser, hid, hliving, hhead⟩ := h.target_row hrow
  obtain ⟨user', department', _, hresolved', huser', hid', hliving', hhead'⟩ := h.target_row hother
  have hsame : department' = department := by
    obtain ⟨_, _, honly⟩ := resolve_department_ok hresolved.department
    obtain ⟨hmem', hcode', _⟩ := resolve_department_ok hresolved'.department
    exact honly department' hmem' (hcode'.trans hcode.symm)
  have htarget := hheaded.one_head _ _ user user' huser huser' hliving hliving' (hhead.2 hmoves)
    (hhead'.2 hmoves') (by rw [hid, hid', hsame])
  exact List.inj_on_of_nodup_map (targets_nodup h.sound h.fresh) hrow hother htarget

end Applied

end Import

/-! ## Every step -/

section Steps

variable {int_float : String → Whole} {w w' : World} {a : Action}

theorem headed_step_iff (h : Headed w.directory) (hstep : step int_float w a = some w') :
    Headed w'.directory ↔ Seats w a := by
  cases step_does hstep with
  | create_user hnew hok hw' =>
    obtain ⟨email, department, hdepartment, _, rfl⟩ := create_user_ok hok
    subst hw'
    refine (h.seat_iff hdepartment).trans ?_
    simp only [Seats, hdepartment, Option.some.injEq, forall_eq']
    exact Iff.rfl
  | update_user hok hw' =>
    obtain ⟨current, department, _, hdepartment, hliving, _, rfl⟩ := update_user_ok hok
    subst hw'
    exact iff_of_true ((h.seat_iff hdepartment).2 (.inr hliving)) trivial
  | delete_user hok hw' =>
    obtain ⟨current, _, _, _, rfl⟩ := delete_user_ok hok
    subst hw'
    exact iff_of_true (h.put_deleted rfl) trivial
  | @create_department id _ _ _ _ hok hw' =>
    subst hw'
    refine iff_of_true (h.put_departments ?_) trivial
    intro k department hk hliving _
    simp only [departments.step] at hok
    split_ifs at hok with hfresh
    obtain ⟨row, rfl, _⟩ := departments.create_department_ok (Raise.ok_of_toOption hok)
    refine ⟨department, ?_, hliving⟩
    rw [Table.rows_set_ne _ _ _, hk]
    rintro rfl
    rw [(departments.fresh_iff.1 hfresh).2.1] at hk
    cases hk
  | @update_department id payload _ hok hw' =>
    subst hw'
    refine iff_of_true (h.put_departments ?_) trivial
    intro k department hk hliving _
    obtain ⟨current, hcurrent, rfl, _⟩ := departments.update_department_ok (Raise.ok_of_toOption hok)
    by_cases hkid : k = id
    · subst hkid
      rw [hk] at hcurrent
      cases hcurrent
      refine ⟨_, Table.rows_set_self _ _ _, ?_⟩
      unfold departments.updated
      dsimp only
      cases payload.activate with
      | none => exact hliving
      | some active => cases active <;> simp
    · exact ⟨department, by rw [Table.rows_set_ne _ _ hkid, hk], hliving⟩
  | @delete_department id _ hok hw' =>
    subst hw'
    obtain ⟨hunstaffed, current, hcurrent, rfl⟩ := delete_department_ok hok
    refine iff_of_true (h.put_departments ?_) trivial
    intro k department hk hliving hstaffed
    refine ⟨department, ?_, hliving⟩
    rw [Table.rows_set_ne _ _ _, hk]
    rintro rfl
    rw [hunstaffed] at hstaffed
    cases hstaffed
  | validate_upload _ hok =>
    obtain ⟨_, _, _, _, rfl⟩ := validate_upload_ok hok
    exact iff_of_true h trivial
  | apply_batch hbatch hfresh hanalysis hpassed himported _ =>
    have happlied := applied_of hanalysis hpassed.errors hfresh himported
    obtain ⟨_, husers⟩ := analyze_batch_ok hanalysis
    simp only [Seats, hbatch, Option.some.injEq, forall_eq']
    rw [← husers]
    exact ⟨happlied.one_of_headed, happlied.headed h⟩

end Steps

/-- Each department has at most one head and no user stands in a deleted one, as
long as nobody is created in a deleted department and no import moves two heads
to one department. That is exact: the first such call that is accepted breaks it. -/
theorem departments_keep_one_head (int_float : String → Whole) :
    (∀ w, (heads_machine int_float).Reach Seats w → Headed w.directory) ∧
      ∀ w a w', (heads_machine int_float).Reach Seats w →
        (heads_machine int_float).step w a = some w' → (Headed w'.directory ↔ Seats w a) := by
  have hheaded : ∀ w, (heads_machine int_float).Reach Seats w → Headed w.directory := by
    intro w h
    apply Machine.Reach.invariant _ _ h
    · intro s hstart
      exact hstart
    · intro s a s' _ hs hseats hstep
      exact (headed_step_iff hs hstep).2 hseats
  refine ⟨hheaded, ?_⟩
  intro w a w' h hstep
  exact headed_step_iff (hheaded w h) hstep

/-! ## Runs -/

theorem start_headed : (heads_machine (fun _ => .value_error)).Start founded := by
  have honly : ∀ id user, founded.directory.users.rows id = some user → id = "admin" ∧
      user.department_id = "dept" := by
    intro id user huser
    simp only [founded, Table.rows_set, Table.rows_empty] at huser
    split_ifs at huser with hid
    cases huser
    exact ⟨hid, rfl⟩
  constructor
  · intro id other user user' hid hother _ _ _ _ _
    rw [(honly id user hid).1, (honly other user' hother).1]
  · intro id user hid _
    rw [(honly id user hid).2]
    exact ⟨_, rfl, by decide⟩

def seatHead (user_id department_id : String) : Action :=
  .create_user user_id 1 ⟨"팀장", some user_id, none, department_id, "role", .active, "user", true⟩

/-- Two heads of one department, one after the other. -/
def headsRun : Option World :=
  (heads_machine (fun _ => .value_error)).run founded [seatHead "first" "dept", seatHead "next" "dept"]

/-- A user in a department that was deleted before. -/
def ghostRun : Option World := (heads_machine (fun _ => .value_error)).run founded
  [.create_department "gone" "폐지" none 1, .delete_department "gone", seatHead "late" "gone"]

theorem heads_reach : (heads_machine (fun _ => .value_error)).Reach Seats
    (headsRun.get (by decide)) := by
  have hfirst : (heads_machine (fun _ => .value_error)).Reach Seats
      (((heads_machine (fun _ => .value_error)).run founded [seatHead "first" "dept"]).get
        (by decide)) := by
    apply (Machine.Reach.start start_headed).next (a := seatHead "first" "dept") _ rfl
    refine .inr ?_
    intro department hdepartment
    cases hdepartment
    decide
  apply hfirst.next (a := seatHead "next" "dept") _ rfl
  refine .inr ?_
  intro department hdepartment
  cases hdepartment
  decide

theorem departments_keep_one_head_after_two :
    Headed (headsRun.get (by decide +kernel)).directory :=
  (departments_keep_one_head (fun _ => .value_error)).1 _ heads_reach

theorem a_user_can_be_created_in_a_deleted_department : ¬ ∀ w,
    (heads_machine (fun _ => .value_error)).Reachable w → Headed w.directory := by
  intro h
  have hreach : (heads_machine (fun _ => .value_error)).Reachable (ghostRun.get (by decide +kernel)) :=
    Machine.reachable_of_run start_headed (Option.some_get _).symm
  have hghost : ((ghostRun.get (by decide +kernel)).directory.users.rows "late").map
      (fun user => (user.status, user.department_id)) = some (.active, "gone") := by decide +kernel
  have hgone : ((ghostRun.get (by decide +kernel)).directory.departments.rows "gone").map
      (·.status) = some .deleted := by decide +kernel
  rw [Option.map_eq_some_iff] at hghost
  obtain ⟨user, huser, heq⟩ := hghost
  rw [Prod.mk.injEq] at heq
  obtain ⟨department, hdepartment, hliving⟩ := (h _ hreach).living "late" user huser (by simp [heq.1])
  rw [heq.2] at hdepartment
  rw [hdepartment] at hgone
  exact hliving (Option.some.inj hgone)

end moaworks.org
