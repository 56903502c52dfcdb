-- Runs of the calls on the directory: there is always an administrator, unless
-- the last active one is set inactive, or goes while an idle one is counted.
import MoaWorks.OrgEffects

namespace moaworks.org

open Raise

/-! ## The machine -/

inductive Action
  | create_user (user_id : String) (now : Nat) (payload : UserCreateRequest)
  | update_user (user_id : String) (payload : UserUpdateRequest)
  | delete_user (actor_user_id user_id : String)
  | create_department (department_id name : String) (parent_id : Option String) (sort_order : Int)
  | update_department (department_id : String) (payload : departments.DepartmentUpdateRequest)
  | delete_department (department_id : String)
  | validate_upload (batch_id : String) (actor_email : Option String) (workbook : Workbook)
      (deactivation_scope : Option String)
  | apply_batch (actor_email : Option String) (ids : NewIds) (now : Nat)
      (payload : OrgImportApplyRequest)

def NewIds.fresh (ids : NewIds) (d : Directory) (rows : List departments.ImportRow)
    (users : List UserRow) : Bool :=
  decide (∀ row ∈ rows, departments.fresh d.departments (ids.department row.rowNumber) = true) &&
    decide (rows.map (fun row => ids.department row.rowNumber)).Nodup &&
    decide (∀ row ∈ users, d.users.rows (ids.user row.rowNumber) = none) &&
    decide (users.map (fun row => ids.user row.rowNumber)).Nodup

theorem NewIds.fresh_iff {ids : NewIds} {d : Directory} {rows : List departments.ImportRow}
    {users : List UserRow} : ids.fresh d rows users = true ↔ ids.Fresh d rows users := by
  unfold NewIds.fresh
  simp only [Bool.and_eq_true, decide_eq_true_eq]
  constructor
  · rintro ⟨⟨⟨hdepartments, hdistinct⟩, husers⟩, hnodup⟩
    exact ⟨hdepartments, hdistinct, husers, hnodup⟩
  · rintro ⟨hdepartments, hdistinct, husers, hnodup⟩
    exact ⟨⟨⟨hdepartments, hdistinct⟩, husers⟩, hnodup⟩

def World.put (w : World) (d : Directory) : World := { w with directory := d }

def Directory.put_departments (d : Directory) (departments : departments.Departments) : Directory :=
  { d with departments := departments }

/-- A call that raises is refused: its transaction is rolled back. -/
def step (int_float : String → Whole) (w : World) : Action → Option World
  | .create_user user_id now payload =>
    if w.directory.users.rows user_id = none then
      (create_user w.directory user_id now payload).toOption.map w.put
    else none
  | .update_user user_id payload => (update_user w.directory user_id payload).toOption.map w.put
  | .delete_user actor_user_id user_id =>
    (delete_user w.directory actor_user_id user_id).toOption.map w.put
  | .create_department department_id name parent_id sort_order =>
    (departments.step w.directory.departments
      (.create_department department_id name parent_id sort_order)).map
      (fun remaining => w.put (w.directory.put_departments remaining))
  | .update_department department_id payload =>
    (departments.step w.directory.departments (.update_department department_id payload)).map
      (fun remaining => w.put (w.directory.put_departments remaining))
  | .delete_department department_id =>
    (delete_department w.directory department_id).toOption.map w.put
  | .validate_upload batch_id actor_email workbook deactivation_scope =>
    if w.batches.rows batch_id = none then
      (validate_upload int_float w batch_id actor_email workbook deactivation_scope).toOption
    else none
  | .apply_batch actor_email ids now payload =>
    match w.batches.rows payload.batchId with
    | none => none
    | some batch =>
      if ids.fresh w.directory batch.departments batch.user_rows then
        (apply_batch int_float w actor_email ids now payload).toOption
      else none

/-- What an accepted action has done. -/
inductive Does (int_float : String → Whole) (w w' : World) : Action → Prop
  | create_user {id now payload d'} : w.directory.users.rows id = none →
      create_user w.directory id now payload = .ok d' → w' = w.put d' →
      Does int_float w w' (.create_user id now payload)
  | update_user {id payload d'} : update_user w.directory id payload = .ok d' → w' = w.put d' →
      Does int_float w w' (.update_user id payload)
  | delete_user {actor id d'} : delete_user w.directory actor id = .ok d' → w' = w.put d' →
      Does int_float w w' (.delete_user actor id)
  | create_department {id name parent_id sort_order remaining} :
      departments.step w.directory.departments (.create_department id name parent_id sort_order) =
        some remaining → w' = w.put (w.directory.put_departments remaining) →
      Does int_float w w' (.create_department id name parent_id sort_order)
  | update_department {id payload remaining} :
      departments.step w.directory.departments (.update_department id payload) = some remaining →
      w' = w.put (w.directory.put_departments remaining) →
      Does int_float w w' (.update_department id payload)
  | delete_department {id d'} : delete_department w.directory id = .ok d' → w' = w.put d' →
      Does int_float w w' (.delete_department id)
  | validate_upload {batch_id actor_email workbook scope} : w.batches.rows batch_id = none →
      validate_upload int_float w batch_id actor_email workbook scope = .ok w' →
      Does int_float w w' (.validate_upload batch_id actor_email workbook scope)
  | apply_batch {actor_email ids now payload batch analysis} :
      w.batches.rows payload.batchId = some batch →
      ids.Fresh w.directory batch.departments batch.user_rows →
      analyze_batch int_float w.directory batch actor_email = .ok analysis →
      Passed w batch analysis payload →
      Imported w.directory analysis ids now w'.directory →
      w'.batches = w.batches.set payload.batchId
        (batch_of w.directory analysis batch.validation_status "applied") →
      Does int_float w w' (.apply_batch actor_email ids now payload)

variable {int_float : String → Whole} {w w' : World} {a : Action}

theorem put_of_map {x : Except String Directory} (h : x.toOption.map w.put = some w') :
    ∃ d', x = .ok d' ∧ w' = w.put d' := by
  rw [Option.map_eq_some_iff] at h
  obtain ⟨d', hd', hw'⟩ := h
  exact ⟨d', ok_of_toOption hd', hw'.symm⟩

theorem step_does (h : step int_float w a = some w') : Does int_float w w' a := by
  cases a with
  | create_user id now payload =>
    simp only [step] at h
    split_ifs at h with hnew
    obtain ⟨d', hd', hw'⟩ := put_of_map h
    exact .create_user hnew hd' hw'
  | update_user id payload =>
    obtain ⟨d', hd', hw'⟩ := put_of_map h
    exact .update_user hd' hw'
  | delete_user actor id =>
    obtain ⟨d', hd', hw'⟩ := put_of_map h
    exact .delete_user hd' hw'
  | create_department id name parent_id sort_order =>
    simp only [step, Option.map_eq_some_iff] at h
    obtain ⟨remaining, hstep, hw'⟩ := h
    exact .create_department hstep hw'.symm
  | update_department id payload =>
    simp only [step, Option.map_eq_some_iff] at h
    obtain ⟨remaining, hstep, hw'⟩ := h
    exact .update_department hstep hw'.symm
  | delete_department id =>
    obtain ⟨d', hd', hw'⟩ := put_of_map h
    exact .delete_department hd' hw'
  | validate_upload batch_id actor_email workbook scope =>
    simp only [step] at h
    split_ifs at h with hnew
    exact .validate_upload hnew (ok_of_toOption h)
  | apply_batch actor_email ids now payload =>
    simp only [step] at h
    split at h
    · cases h
    · rename_i batch hbatch
      split_ifs at h with hfresh
      obtain ⟨batch', analysis, hbatch', hanalysis, hpassed, hwritten, hbatches⟩ :=
        apply_batch_ok (ok_of_toOption h)
      rw [hbatch] at hbatch'
      cases hbatch'
      have hfresh' := NewIds.fresh_iff.1 hfresh
      exact .apply_batch hbatch hfresh' hanalysis hpassed
        (applied hanalysis hpassed.errors hfresh' hwritten) hbatches

theorem validate_upload_ok {batch_id : String} {actor_email : Option String} {workbook : Workbook}
    {scope : Option String}
    (h : validate_upload int_float w batch_id actor_email workbook scope = .ok w') :
    ∃ rows analysis, parse_workbook workbook = .ok rows ∧
      analyze_import int_float w.directory rows.1 rows.2 actor_email
        (normalize_deactivation_scope scope) = .ok analysis ∧
      w' = { w with batches := w.batches.set batch_id (batch_of w.directory analysis
        (if analysis.errors = [] then "passed" else "failed") "pending") } := by
  unfold validate_upload at h
  simp only [bind_ok] at h
  obtain ⟨rows, hrows, analysis, hanalysis, hw'⟩ := h
  cases hw'
  exact ⟨rows, analysis, hrows, hanalysis, rfl⟩

/-! ## Administrators -/

def is_admin (user : User) : Bool := decide (user.user_type = "admin") && decide (user.status = .active)

def active_admins (d : Directory) : Finset String := d.users.select (fun _ user => is_admin user)

theorem is_admin_iff {user : User} :
    is_admin user = true ↔ user.user_type = "admin" ∧ user.status = .active := by
  unfold is_admin
  rw [Bool.and_eq_true, decide_eq_true_eq, decide_eq_true_eq]

def machine (int_float : String → Whole) : Machine World Action where
  Start := fun w => (active_admins w.directory).Nonempty
  step := step int_float

/-- No other user is an active administrator. -/
def Only (d : Directory) (id : String) : Prop :=
  ∀ other user, other ≠ id → d.users.rows other = some user → is_admin user = false

/-- An administrator who is neither deleted nor active: the guards count him. -/
def Idle (d : Directory) : Prop :=
  ∃ id user, d.users.rows id = some user ∧ user.user_type = "admin" ∧ user.status ≠ .deleted ∧
    user.status ≠ .active

/-- A change of the only active administrator to `next` that leaves none, and
that the guards let through. -/
inductive Escapes (d : Directory) (next : User) : Prop
  | suspended : next.user_type = "admin" → next.status = .inactive ∨ next.status = .pending_mfa →
      Escapes d next
  | outnumbered : next.user_type ≠ "admin" ∨ next.status = .deleted → Idle d → Escapes d next

/-- What a step must not do: to suspend the only active administrator, or to
demote or delete him while an idle one exists. -/
def Retains (w : World) : Action → Prop
  | .update_user user_id payload => ∀ current, w.directory.users.rows user_id = some current →
      is_admin current = true → Only w.directory user_id →
      ¬ Escapes w.directory (updated_user current payload)
  | .delete_user _ user_id => ∀ current, w.directory.users.rows user_id = some current →
      is_admin current = true → Only w.directory user_id → ¬ Idle w.directory
  | _ => True

/-- The guards count one administrator only when he is the only one and no idle one exists. -/
theorem admin_count_gt {d : Directory} {id : String} {current : User}
    (hcurrent : d.users.rows id = some current) (hadmin : is_admin current = true)
    (honly : Only d id) : 1 < d.admin_count ↔ Idle d := by
  unfold Directory.admin_count
  obtain ⟨htype, hactive⟩ := is_admin_iff.1 hadmin
  rw [Finset.one_lt_card]
  constructor
  · rintro ⟨a, ha, b, hb, hne⟩
    -- one of the two is another user
    have hother : ∃ other, other ≠ id ∧ other ∈ d.users.select (fun _ user =>
        decide (user.user_type = "admin") && decide (user.status ≠ .deleted)) := by
      by_cases haid : a = id
      · exact ⟨b, fun hbid => hne (haid.trans hbid.symm), hb⟩
      · exact ⟨a, haid, ha⟩
    obtain ⟨other, hother, hmem⟩ := hother
    rw [Table.mem_select] at hmem
    obtain ⟨user, huser, hcounted⟩ := hmem
    rw [Bool.and_eq_true, decide_eq_true_eq, decide_eq_true_eq] at hcounted
    refine ⟨other, user, huser, hcounted.1, hcounted.2, fun hstatus => ?_⟩
    have hnone := honly other user hother huser
    rw [is_admin_iff.2 ⟨hcounted.1, hstatus⟩] at hnone
    cases hnone
  · rintro ⟨other, user, huser, hutype, hliving, hidle⟩
    refine ⟨id, ?_, other, ?_, ?_⟩
    · rw [Table.mem_select]
      refine ⟨current, hcurrent, ?_⟩
      simp [htype, hactive]
    · rw [Table.mem_select]
      refine ⟨user, huser, ?_⟩
      simp [hutype, hliving]
    · rintro rfl
      rw [hcurrent] at huser
      cases huser
      exact hidle hactive

section Changes

variable {d d' : Directory} {id : String} {current next : User}

/-- One user becomes `next`, and nobody else becomes or stops being an administrator. -/
structure Changed (d : Directory) (id : String) (next : User) (d' : Directory) : Prop where
  self : d'.users.rows id = some next
  others : ∀ other, other ≠ id →
    (d'.users.rows other).map is_admin = (d.users.rows other).map is_admin

theorem changed_seat : Changed d id next (d.seat id next) := by
  refine ⟨Directory.rows_seat_self, ?_⟩
  intro other hother
  rw [Directory.rows_seat_ne hother, Option.map_map]
  congr 1
  funext user
  simp only [Function.comp_apply, is_admin, Directory.yielding_status, Directory.yielding_user_type]

theorem changed_put_user : Changed d id next (d.put_user id next) := by
  refine ⟨?_, ?_⟩
  · rw [Directory.rows_put_user, if_pos rfl]
  · intro other hother
    rw [Directory.rows_put_user, if_neg hother]

theorem Changed.mem_iff (h : Changed d id next d') {other : String} (hother : other ≠ id) :
    other ∈ active_admins d' ↔ other ∈ active_admins d := by
  have hsame := h.others other hother
  unfold active_admins
  rw [Table.mem_select, Table.mem_select]
  cases hrow : d.users.rows other with
  | none =>
    rw [hrow, Option.map_none, Option.map_eq_none_iff] at hsame
    rw [hsame]
  | some user =>
    rw [hrow, Option.map_some, Option.map_eq_some_iff] at hsame
    obtain ⟨user', hrow', hadmin⟩ := hsame
    rw [hrow']
    simp [hadmin]

theorem mem_active_admins : id ∈ active_admins d ↔
    ∃ user, d.users.rows id = some user ∧ is_admin user = true := by
  unfold active_admins
  rw [Table.mem_select]

theorem only_iff : Only d id ↔ ∀ other ∈ active_admins d, other = id := by
  unfold Only
  constructor
  · intro h other hother
    obtain ⟨user, huser, hadmin⟩ := mem_active_admins.1 hother
    by_contra hne
    rw [h other user hne huser] at hadmin
    cases hadmin
  · intro h other user hne huser
    by_contra hadmin
    rw [Bool.not_eq_false] at hadmin
    exact hne (h other (mem_active_admins.2 ⟨user, huser, hadmin⟩))

/-- Whatever happens to one user, the other administrators stay. -/
theorem Changed.remains_of_other (h : Changed d id next d') (hother : ¬ Only d id) :
    (active_admins d').Nonempty := by
  rw [only_iff] at hother
  push Not at hother
  obtain ⟨other, hmem, hne⟩ := hother
  exact ⟨other, (h.mem_iff hne).2 hmem⟩

/-- What becomes of the only administrator decides. -/
theorem Changed.remains_iff_of_only (h : Changed d id next d') (honly : Only d id) :
    (active_admins d').Nonempty ↔ is_admin next = true := by
  constructor
  · rintro ⟨other, hmem⟩
    by_cases hid : other = id
    · rw [hid] at hmem
      obtain ⟨user, huser, hadmin⟩ := mem_active_admins.1 hmem
      rw [h.self] at huser
      cases huser
      exact hadmin
    · exact absurd (only_iff.1 honly other ((h.mem_iff hid).1 hmem)) hid
  · intro hadmin
    exact ⟨id, mem_active_admins.2 ⟨next, h.self, hadmin⟩⟩

/-- Where the guard has let the change through, an administrator remains
unless the change escapes it. -/
theorem Changed.remains_iff (h : Changed d id next d') (hsome : (active_admins d).Nonempty)
    (hcurrent : d.users.rows id = some current) (hlet : Let d current next) :
    (active_admins d').Nonempty ↔ (is_admin current = true → Only d id → ¬ Escapes d next) := by
  by_cases honly : Only d id
  · have hadmin : is_admin current = true := by
      obtain ⟨other, hmem⟩ := hsome
      obtain ⟨user, huser, hadmin⟩ := mem_active_admins.1 hmem
      rw [only_iff.1 honly other hmem, hcurrent] at huser
      cases huser
      exact hadmin
    rw [h.remains_iff_of_only honly, is_admin_iff]
    constructor
    · rintro ⟨htype, hactive⟩ _ _ hescapes
      cases hescapes with
      | suspended _ hstatus =>
        rw [hactive] at hstatus
        rcases hstatus with hstatus | hstatus
        · cases hstatus
        · cases hstatus
      | outnumbered hgone _ =>
        rcases hgone with hgone | hgone
        · exact hgone htype
        · rw [hactive] at hgone
          cases hgone
    · intro hkeeps
      have hescapes := hkeeps hadmin honly
      have hstays : ¬ (next.user_type ≠ "admin" ∨ next.status = .deleted) := by
        intro hgone
        have hcount := hlet (is_admin_iff.1 hadmin).1 hgone
        exact hescapes (.outnumbered hgone ((admin_count_gt hcurrent hadmin honly).1 hcount))
      rw [not_or, not_not] at hstays
      refine ⟨hstays.1, ?_⟩
      cases hstatus : next.status with
      | active => rfl
      | inactive => exact absurd (.suspended hstays.1 (.inl hstatus)) hescapes
      | deleted => exact absurd hstatus hstays.2
      | pending_mfa => exact absurd (.suspended hstays.1 (.inr hstatus)) hescapes
  · simp only [honly, false_implies, implies_true, iff_true]
    exact h.remains_of_other honly

end Changes

/-! ## The import -/

/-- A workbook leaves the rows of administrators as they are. -/
theorem import_keeps_admin {analysis : Analysis} {ids : NewIds} {now : Nat} {d d' : Directory}
    {actor_email : Option String} {batch : Batch} {id : String} {user : User}
    (hanalysis : analyze_batch int_float d batch actor_email = .ok analysis)
    (herrors : analysis.errors = []) (hfresh : ids.Fresh d batch.departments batch.user_rows)
    (himported : Imported d analysis ids now d') (huser : d.users.rows id = some user)
    (htype : user.user_type = "admin") : d'.users.rows id = some user := by
  have hsound := sound_of_passed hanalysis herrors
  obtain ⟨_, husers⟩ := analyze_batch_ok hanalysis
  rw [himported.others id, huser, Option.map_some, if_neg]
  · -- protected users are not in the list
    intro hmem
    obtain ⟨listed, hlisted, rfl⟩ := List.mem_map.1 hmem
    obtain ⟨hrow, hmissing⟩ := analyzed_missing hanalysis hlisted
    rw [huser, Option.some.injEq] at hrow
    have hunprotected := hmissing.unprotected
    unfold is_protected_account at hunprotected
    rw [← hrow] at hunprotected
    simp [htype] at hunprotected
  · intro row hrow heq
    unfold target at heq
    cases hexisting : existing_user d row.loginId with
    | none =>
      rw [hexisting] at heq
      dsimp only at heq
      have hnew := hfresh.unused row (husers ▸ hrow)
      rw [heq, huser] at hnew
      cases hnew
    | some entry =>
      rw [hexisting] at heq
      dsimp only at heq
      have hfound := (existing_user_ok hexisting).1
      rw [heq, huser] at hfound
      cases hfound
      exact hsound.no_admin row hrow _ _ hexisting htype

/-! ## Every step -/

theorem create_keeps {d : Directory} {id : String} {next : User} (hnew : d.users.rows id = none)
    (hsome : (active_admins d).Nonempty) : (active_admins (d.seat id next)).Nonempty := by
  obtain ⟨other, hmem⟩ := hsome
  have hne : other ≠ id := by
    rintro rfl
    obtain ⟨_, huser, _⟩ := mem_active_admins.1 hmem
    rw [hnew] at huser
    cases huser
  exact ⟨other, (changed_seat.mem_iff hne).2 hmem⟩

theorem remains_step (hsome : (active_admins w.directory).Nonempty)
    (hstep : step int_float w a = some w') :
    (active_admins w'.directory).Nonempty ↔ Retains w a := by
  cases step_does hstep with
  | create_user hnew hok hw' =>
    obtain ⟨_, _, _, _, rfl⟩ := create_user_ok hok
    subst hw'
    exact iff_of_true (create_keeps hnew hsome) trivial
  | update_user hok hw' =>
    obtain ⟨current, _, hcurrent, _, _, hlet, rfl⟩ := update_user_ok hok
    subst hw'
    refine (changed_seat.remains_iff hsome hcurrent hlet).trans ?_
    simp only [Retains, hcurrent, Option.some.injEq, forall_eq']
  | @delete_user _ id _ hok hw' =>
    obtain ⟨current, hcurrent, _, hlet, rfl⟩ := delete_user_ok hok
    subst hw'
    refine (changed_put_user.remains_iff hsome hcurrent hlet).trans ?_
    simp only [Retains, hcurrent, Option.some.injEq, forall_eq']
    -- a deleted user can only escape by number
    have hescapes : Escapes w.directory { current with status := .deleted } ↔ Idle w.directory := by
      constructor
      · intro h
        cases h with
        | suspended _ hstatus => simp at hstatus
        | outnumbered _ hidle => exact hidle
      · exact fun hidle => .outnumbered (.inr rfl) hidle
    rw [hescapes]
  | create_department _ hw' =>
    subst hw'
    exact iff_of_true hsome trivial
  | update_department _ hw' =>
    subst hw'
    exact iff_of_true hsome trivial
  | delete_department hok hw' =>
    obtain ⟨_, _, _, rfl⟩ := delete_department_ok hok
    subst hw'
    exact iff_of_true hsome trivial
  | validate_upload _ hok =>
    obtain ⟨_, _, _, _, rfl⟩ := validate_upload_ok hok
    exact iff_of_true hsome trivial
  | apply_batch _ hfresh hanalysis hpassed himported _ =>
    refine iff_of_true ?_ trivial
    obtain ⟨id, hmem⟩ := hsome
    obtain ⟨user, huser, hadmin⟩ := mem_active_admins.1 hmem
    have hkept := import_keeps_admin hanalysis hpassed.errors hfresh himported huser
      (is_admin_iff.1 hadmin).1
    exact ⟨id, mem_active_admins.2 ⟨user, hkept, hadmin⟩⟩

/-- There is always an active administrator, unless the only one is suspended,
or demoted or deleted while an idle administrator is counted. -/
theorem an_administrator_remains (int_float : String → Whole) :
    (∀ w, (machine int_float).Reach Retains w → (active_admins w.directory).Nonempty) ∧
      ∀ w a w', (machine int_float).Reach Retains w → (machine int_float).step w a = some w' →
        ((active_admins w'.directory).Nonempty ↔ Retains w a) := by
  have hremains : ∀ w, (machine int_float).Reach Retains w → (active_admins w.directory).Nonempty := by
    intro w h
    apply Machine.Reach.invariant _ _ h
    · intro s hstart
      exact hstart
    · intro s a s' _ hsome hretains hstep
      exact (remains_step hsome hstep).2 hretains
  refine ⟨hremains, ?_⟩
  intro w a w' h hstep
  exact remains_step (hremains w h) hstep

/-! ## Runs -/

/-- One department, one role, and one administrator. -/
def founded : World where
  directory := {
    company_domain := "moaworks.local"
    departments := Table.empty.set "dept" ⟨"본사", none, .active, 100, true⟩
    department_codes := .empty
    roles := Table.empty.set "role" ⟨"관리자", ["admin:*"], "active", 0⟩
    users := Table.empty.set "admin" ⟨"admin@moaworks.local", "관리자", "dept", "role", .active,
      "admin", false, false, 0⟩ }
  batches := .empty

theorem start_founded : (machine (fun _ => .value_error)).Start founded := by
  change (active_admins founded.directory).Nonempty
  decide

def suspend : Action := .update_user "admin" ⟨none, none, none, none, some .inactive, none, none⟩

def appoint : Action :=
  .create_user "second" 1 ⟨"둘째", some "second", none, "dept", "role", .active, "admin", false⟩

/-- The only administrator sets himself inactive. -/
def suspendedRun : Option World := (machine (fun _ => .value_error)).run founded [suspend]

/-- He appoints another one before. -/
def handedRun : Option World := (machine (fun _ => .value_error)).run founded [appoint]

theorem handed_reach : (machine (fun _ => .value_error)).Reach Retains
    (handedRun.get (by decide)) := by
  apply (Machine.Reach.start start_founded).run _ (Option.some_get _).symm
  intro a ha t
  rw [List.mem_singleton] at ha
  subst ha
  exact trivial

theorem an_administrator_remains_after_a_handover :
    (active_admins (handedRun.get (by decide +kernel)).directory).Nonempty ∧
      ∀ w', (machine (fun _ => .value_error)).step (handedRun.get (by decide +kernel)) suspend =
        some w' → ((active_admins w'.directory).Nonempty ↔
          Retains (handedRun.get (by decide +kernel)) suspend) :=
  have h := an_administrator_remains (fun _ => .value_error)
  ⟨h.1 _ handed_reach, fun w' hstep => h.2 _ _ w' handed_reach hstep⟩

theorem the_only_administrator_can_be_suspended : ¬ ∀ w,
    (machine (fun _ => .value_error)).Reachable w → (active_admins w.directory).Nonempty := by
  intro h
  have hreach : (machine (fun _ => .value_error)).Reachable (suspendedRun.get (by decide +kernel)) :=
    Machine.reachable_of_run start_founded (Option.some_get _).symm
  have hnone : ¬ (active_admins (suspendedRun.get (by decide +kernel)).directory).Nonempty := by
    decide +kernel
  exact hnone (h _ hreach)

end moaworks.org
