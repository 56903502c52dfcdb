-- The import deactivates the users that were shown when the workbook was
-- validated, and nobody else: at most once, and only when that is confirmed.
import MoaWorks.OrgHeads
import MoaWorks.OrgPayload

namespace moaworks.org

section Missing

variable {int_float : String → Whole} {w w' : World} {d d' : Directory} {analysis : Analysis}
  {ids : NewIds} {now : Nat} {batch : Batch} {actor_email : Option String} {id : String} {user : User}

/-- The user was neither deleted nor inactive, the file does not name him, and he is inactive now. -/
def Dropped (login_ids : List String) (before after : Directory) (id : String) : Prop :=
  ∃ user user', before.users.rows id = some user ∧ after.users.rows id = some user' ∧
    user.status ≠ .deleted ∧ user.status ≠ .inactive ∧ login_of user ∉ login_ids ∧
    user'.status = .inactive

/-- The login id by which a row finds a user is in the file. -/
theorem found_login {row : UserRow} (hstored : Stored int_float batch) (hrow : row ∈ batch.users)
    (hexisting : existing_user d row.loginId = some (id, user)) : login_of user = row.loginId := by
  obtain ⟨_, hkey, hne⟩ := existing_user_ok hexisting
  exact login_of_found hkey hne (stored_login_chars hstored hrow)

theorem mem_login_ids {login_id : String} :
    login_id ∈ analysis.login_ids ↔ (∃ row ∈ analysis.users, row.loginId = login_id) ∧ login_id ≠ "" := by
  unfold Analysis.login_ids
  rw [List.mem_filter, List.mem_map, decide_eq_true_eq]

/-- No row of the file is about a user whom it does not name. -/
theorem target_ne {row : UserRow} (hstored : Stored int_float batch)
    (hanalysis : analyze_batch int_float d batch actor_email = .ok analysis)
    (hfresh : ids.Fresh d batch.departments batch.user_rows) (hrow : row ∈ analysis.users)
    (huser : d.users.rows id = some user) (habsent : login_of user ∉ analysis.login_ids) :
    target d ids row ≠ id := by
  intro heq
  unfold target at heq
  cases hexisting : existing_user d row.loginId with
  | none =>
    rw [hexisting] at heq
    dsimp only at heq
    have hnew := hfresh.unused row ((analyze_batch_ok hanalysis).2 ▸ hrow)
    rw [heq, huser] at hnew
    cases hnew
  | some entry =>
    obtain ⟨found_id, found⟩ := entry
    rw [hexisting] at heq
    dsimp only at heq
    subst heq
    obtain ⟨hfound, _, hne⟩ := existing_user_ok hexisting
    rw [huser] at hfound
    cases hfound
    apply habsent
    rw [mem_login_ids, found_login hstored (reread_users hstored hanalysis ▸ hrow) hexisting]
    exact ⟨⟨row, hrow, rfl⟩, hne⟩

theorem nodup_missing (h : analyze_batch int_float d batch actor_email = .ok analysis) :
    (analysis.users_to_deactivate.map (·.id)).Nodup := by
  obtain ⟨_, _, _, hlist, _⟩ := analyze_import_ok h
  rw [hlist]
  have hnodup : ((existing_users d).map Prod.fst).Nodup := by
    unfold existing_users
    exact (List.filter_sublist.map Prod.fst).nodup (Table.nodup_orderedBy _ _)
  generalize existing_users d = users at hnodup
  generalize compare d _ _ _ _ = comparison
  have hsub : ((users.filterMap (to_deactivate comparison)).map (·.id)).Sublist (users.map Prod.fst) := by
    clear hnodup
    induction users with
    | nil => simp
    | cons entry users ih =>
      rw [List.filterMap_cons, List.map_cons]
      unfold to_deactivate
      cases hcompare : comparison entry.2 with
      | skip => exact ih.cons _
      | protect reason => exact ih.cons _
      | deactivate reason => exact ih.cons_cons _
  exact hsub.nodup hnodup

/-- The users that an applied batch has set inactive for being missing are those of its analysis. -/
theorem dropped_iff (hstored : Stored int_float batch)
    (hanalysis : analyze_batch int_float d batch actor_email = .ok analysis)
    (hfresh : ids.Fresh d batch.departments batch.user_rows)
    (himported : Imported d analysis ids now d') :
    Dropped analysis.login_ids d d' id ↔ id ∈ analysis.users_to_deactivate.map (·.id) := by
  constructor
  · rintro ⟨user, user', huser, huser', _, hinactive, habsent, hdropped⟩
    by_contra hmem
    rw [himported.others id (fun row hrow => target_ne hstored hanalysis hfresh hrow huser habsent),
      huser, Option.map_some, if_neg hmem] at huser'
    cases huser'
    exact hinactive hdropped
  · intro hmem
    obtain ⟨listed, hlisted, rfl⟩ := List.mem_map.1 hmem
    obtain ⟨huser, hmissing⟩ := analyzed_missing hanalysis hlisted
    refine ⟨listed.user, { listed.user with status := .inactive }, huser, ?_, hmissing.living.1,
      hmissing.living.2, hmissing.absent, rfl⟩
    rw [himported.others _ (fun row hrow =>
      target_ne hstored hanalysis hfresh hrow huser hmissing.absent), huser, Option.map_some, if_pos hmem]

/-! ## What was shown -/

theorem normalize_email_again (email : String) :
    normalize_email (normalize_email email) = normalize_email email := Text.lower_strip_again email

/-- The addresses of a stored preview are normalised. -/
def Normal (shown : List PreviewRow) : Prop := ∀ row ∈ shown, normalize_email row.email = row.email

theorem normal_preview (listed : List Listed) : Normal (deactivation_preview_rows d listed) := by
  intro row hrow
  obtain ⟨entry, _, rfl⟩ := List.mem_map.1 hrow
  exact normalize_email_again _

/-- Equal targets are equal lists of addresses, up to their order. -/
theorem perm_of_same {left right : List PreviewRow} (hleft : Normal left) (hright : Normal right)
    (h : same_preview_targets left right = true) : (left.map (·.email)).Perm (right.map (·.email)) := by
  unfold same_preview_targets at h
  have hperm := (List.isPerm_iff.1 h).map Prod.fst
  rw [List.map_map, List.map_map] at hperm
  have hemails : ∀ rows : List PreviewRow, Normal rows →
      rows.map (Prod.fst ∘ PreviewRow.target) = rows.map (·.email) :=
    fun rows hrows => List.map_congr_left hrows
  rw [hemails left hleft, hemails right hright] at hperm
  exact hperm

/-- The address of the user with an id. -/
def address (d : Directory) (id : String) : String :=
  ((d.users.rows id).map (fun user => normalize_email user.email)).getD ""

theorem addresses_of_missing (h : analyze_batch int_float d batch actor_email = .ok analysis) :
    (analysis.users_to_deactivate.map (·.id)).map (address d) =
      (deactivation_preview_rows d analysis.users_to_deactivate).map (·.email) := by
  unfold deactivation_preview_rows
  rw [List.map_map, List.map_map]
  apply List.map_congr_left
  intro listed hlisted
  unfold address
  simp only [Function.comp_apply, (analyzed_missing h hlisted).1, Option.map_some, Option.getD_some]
  rfl

/-! ## The claim of one applied batch -/

/-- Who may be deactivated: nobody of the administrators, the protected list or the actor himself, and
with the default scope only verification accounts of uploaded departments. -/
structure Allowed (d : Directory) (scope : Scope) (codes : List String) (actor_email : Option String)
    (user : User) : Prop where
  no_admin : user.user_type ≠ "admin"
  not_listed : normalize_email user.email ∉ EXPLICIT_PROTECTED_EMAILS
  not_actor : ∀ email, actor_email = some email → normalize_email email ≠ "" →
    normalize_email user.email ≠ normalize_email email
  verification : scope = .uploaded_departments_only →
    is_verification_account (login_of user) = true ∧ in_uploaded_departments d codes user = true

theorem Missing.allowed {scope : Scope} {login_ids codes : List String}
    (h : Missing d scope login_ids codes (actor_address actor_email) user) :
    Allowed d scope codes actor_email user := by
  have hunprotected := h.unprotected
  unfold is_protected_account at hunprotected
  simp only [Bool.or_eq_false_iff, Bool.and_eq_false_iff, decide_eq_false_iff_not] at hunprotected
  obtain ⟨⟨hadmin, hlisted⟩, hactor⟩ := hunprotected
  refine ⟨hadmin, hlisted, ?_, fun hscope => ⟨h.verification hscope, h.uploaded hscope⟩⟩
  rintro email rfl hne heq
  rcases hactor with hactor | hactor
  · exact hactor hne
  · exact hactor heq

/-- What an applied batch has deactivated, against the batch as it was shown. -/
structure AsShown (shown : Batch) (scope : Scope) (before after : World) (actor_email : Option String)
    (payload : OrgImportApplyRequest) (ids : List String) : Prop where
  nodup : ids.Nodup
  dropped : ∀ id, id ∈ ids ↔
    Dropped (shown.users.map (·.loginId)) before.directory after.directory id
  addresses : (ids.map (address before.directory)).Perm (shown.usersToDeactivate.map (·.email))
  allowed : ∀ id ∈ ids, ∃ user, before.directory.users.rows id = some user ∧
    Allowed before.directory scope (shown.departments.map (·.departmentCode)) actor_email user
  no_scope : scope = .none → ids = []
  confirmed : ids ≠ [] → confirmed scope payload = true

theorem filter_eq_of_named {texts : List String} (h : ∀ text ∈ texts, text ≠ "") :
    texts.filter (fun text => decide (text ≠ "")) = texts :=
  List.filter_eq_self.2 (fun text htext => decide_eq_true (h text htext))

theorem department_issues_nil {row : departments.ImportRow} (h : department_issues row = []) :
    row.departmentCode ≠ "" ∧ row.departmentName ≠ "" := by
  unfold department_issues at h
  rw [List.append_eq_nil_iff] at h
  unfold required at h
  obtain ⟨hcode, hname⟩ := h
  split_ifs at hcode hname with hempty hempty'
  exact ⟨hempty, hempty'⟩

/-- The rows of an analysis without errors have codes and login ids. -/
theorem named_rows (hanalysis : analyze_batch int_float d batch actor_email = .ok analysis)
    (herrors : analysis.errors = []) : analysis.login_ids = analysis.users.map (·.loginId) ∧
      analysis.codes = analysis.departments.map (·.departmentCode) := by
  have hsound := sound_of_passed hanalysis herrors
  obtain ⟨_, _, _, _, hissues⟩ := analyze_import_ok hanalysis
  rw [hissues, List.append_eq_nil_iff, List.append_eq_nil_iff, List.flatMap_eq_nil_iff] at herrors
  refine ⟨filter_eq_of_named ?_, filter_eq_of_named ?_⟩
  · intro text htext
    obtain ⟨row, hrow, rfl⟩ := List.mem_map.1 htext
    exact hsound.named row hrow
  · intro text htext
    obtain ⟨row, hrow, rfl⟩ := List.mem_map.1 htext
    exact (department_issues_nil (herrors.1.1 row hrow)).1

theorem as_shown {scope : Scope} {payload : OrgImportApplyRequest} (hstored : Stored int_float batch)
    (hscope : batch.deactivationScope = scope.text) (hnormal : Normal batch.usersToDeactivate)
    (hfresh : ids.Fresh w.directory batch.departments batch.user_rows)
    (hanalysis : analyze_batch int_float w.directory batch actor_email = .ok analysis)
    (hpassed : Passed w batch analysis payload)
    (himported : Imported w.directory analysis ids now w'.directory) :
    AsShown batch scope w w' actor_email payload (analysis.users_to_deactivate.map (·.id)) := by
  obtain ⟨hlogins, hcodes⟩ := named_rows hanalysis hpassed.errors
  have hscope' : analysis.deactivation_scope = scope := by
    obtain ⟨_, _, h, _⟩ := analyze_import_ok hanalysis
    rw [h, hscope, normalize_scope_text]
  constructor
  · exact nodup_missing hanalysis
  · intro id
    rw [← reread_users hstored hanalysis, ← hlogins]
    exact (dropped_iff hstored hanalysis hfresh himported).symm
  · rw [addresses_of_missing hanalysis]
    exact (perm_of_same hnormal (normal_preview _) hpassed.shown).symm
  · intro id hid
    obtain ⟨listed, hlisted, rfl⟩ := List.mem_map.1 hid
    obtain ⟨huser, hmissing⟩ := analyzed_missing hanalysis hlisted
    refine ⟨listed.user, huser, ?_⟩
    rw [hscope', hcodes, reread_codes hstored hanalysis] at hmissing
    exact hmissing.allowed
  · intro hnone
    rw [List.map_eq_nil_iff, List.eq_nil_iff_forall_not_mem]
    intro listed hlisted
    exact (analyzed_missing hanalysis hlisted).2.comparing (hscope'.trans hnone)
  · intro hne
    rw [← hscope']
    exact hpassed.confirmed.resolve_left (fun hnil => hne (by rw [hnil]; rfl))

/-- An import deactivates exactly the users that its preview showed, all of them
allowed, and with the confirmation that their scope asks for; after that its batch
is never applied again. -/
theorem imports_deactivate_what_was_shown (int_float : String → Whole) {w w' before after : World}
    {batch_id : String} {uploader actor : Option String} {workbook : Workbook} {scope : Option String}
    {ids : NewIds} {now : Nat} {payload : OrgImportApplyRequest}
    (hvalidate : (batch_machine int_float).step w
      (.validate_upload batch_id uploader workbook scope) = some w')
    (hlater : (batch_machine int_float).Later w' before) (hbatch : payload.batchId = batch_id)
    (happly : (batch_machine int_float).step before (.apply_batch actor ids now payload) = some after) :
    (∃ shown dropped, w'.batches.rows batch_id = some shown ∧
      AsShown shown (normalize_deactivation_scope scope) before after actor payload dropped) ∧
      ∀ later actor' ids' now' payload', (batch_machine int_float).Later after later →
        payload'.batchId = batch_id →
        (batch_machine int_float).step later (.apply_batch actor' ids' now' payload') = none := by
  subst hbatch
  obtain ⟨rows, analysis, _, hshown, hstored⟩ := validated hvalidate
  have hdoes : Does int_float before after (.apply_batch actor ids now payload) := step_does happly
  cases hdoes with
  | @apply_batch _ _ _ _ batch applied hfound hfresh hanalysis hpassed himported hbatches =>
    obtain ⟨found, hbatch, hkept⟩ := Kept.later ⟨_, hstored, .inl rfl⟩ hlater
    rw [hfound, Option.some.injEq] at hbatch
    subst hbatch
    have hsame := hkept.resolve_right hpassed.pending
    refine ⟨⟨_, applied.users_to_deactivate.map (·.id), hstored, ?_⟩, ?_⟩
    · rw [← hsame]
      refine as_shown (hsame ▸ stored_of_analysis hshown) ?_ ?_ hfresh hanalysis hpassed himported
      · rw [hsame, ← (analyze_import_ok hshown).2.2.1]
        rfl
      · rw [hsame]
        exact normal_preview _
    · intro later actor' ids' now' payload' hend hpayload
      have hafter : Kept payload.batchId (batch_of before.directory _ _ "applied") after :=
        ⟨_, by rw [hbatches, Table.rows_set_self], .inl rfl⟩
      obtain ⟨last, hlast, hstatus⟩ := hafter.later hend
      apply applied_once (hpayload ▸ hlast)
      rcases hstatus with rfl | hstatus
      · rfl
      · exact hstatus

end Missing

/-! ## A run -/

/-- The company with a department of testers, and one tester in it. -/
def tested : World where
  directory := { founded.directory with
    departments := founded.directory.departments.set "qa" ⟨"검수", none, .active, 100, false⟩
    department_codes := Table.empty.set "qa" "QA"
    users := founded.directory.users.set "tester" ⟨"test.one@moaworks.local", "검수", "qa", "role",
      .active, "user", false, false, 1⟩ }
  batches := .empty

def sheet (title : String) (headers : List String) (rows : List (List String)) : Worksheet where
  title := title
  max_row := rows.length + 1
  header := some (headers.map Cell.text)
  rows := rows.map (List.map Cell.text)

/-- A workbook that names the department of testers, and somebody else. -/
def qaWorkbook : Workbook where
  departments := some (sheet "departments" DEPARTMENT_HEADERS [["QA", "검수", "", "100", "active"]])
  users := some (sheet "users" USER_HEADERS [["new.one", "신입", "QA", "role", "active"]])

def hundred (_ : String) : Whole := .int 100

def shownRun : Option World := (batch_machine hundred).step tested
  (.validate_upload "batch" (some "admin@moaworks.local") qaWorkbook none)

def newIds : NewIds := ⟨fun n => "dept" ++ toString n, fun n => "user" ++ toString n⟩

def confirmation : OrgImportApplyRequest := ⟨"batch", true, none⟩

def shownWorld : World := shownRun.get (by decide +kernel)

theorem shown_step : (batch_machine hundred).step tested
    (.validate_upload "batch" (some "admin@moaworks.local") qaWorkbook none) = some shownWorld :=
  (Option.some_get _).symm

def appliedRun : Option World := (batch_machine hundred).step shownWorld
  (.apply_batch (some "admin@moaworks.local") newIds 2 confirmation)

def appliedWorld : World := appliedRun.get (by decide +kernel)

theorem applied_step : (batch_machine hundred).step shownWorld
    (.apply_batch (some "admin@moaworks.local") newIds 2 confirmation) = some appliedWorld :=
  (Option.some_get _).symm

theorem the_shown_tester_is_deactivated : ∃ shown dropped,
    shownWorld.batches.rows "batch" = some shown ∧
      AsShown shown (normalize_deactivation_scope none) shownWorld appliedWorld
        (some "admin@moaworks.local") confirmation dropped :=
  (imports_deactivate_what_was_shown hundred shown_step (.refl _) rfl applied_step).1

end moaworks.org
