-- The permissions of the lists against those of the actions: a list shows an editor where the
-- action finds a viewer, when the department of the share is not active any more.
import MoaWorks.WorkspaceFiles

namespace moaworks.workspace

variable {db : Access} {files : Table String File} {user : AuthUserSummary}

/-! ## Who may do what -/

/-- The status in which the operation of an action takes the file. -/
def requiredStatus : Action → Status
  | .restore => .deleted
  | _ => .active

def Accepts (db : Access) (files : Table String File) (user : AuthUserSummary) (id : String)
    (action : Action) : Prop :=
  ∃ row, _lock_file_access db files user id action (requiredStatus action) = .ok row

theorem lock_file_access_ok {id : String} {action : Action} {required : Status} {row : File} :
    _lock_file_access db files user id action required = .ok row ↔
      files.rows id = some row ∧ _file_access_sql db user id row = true ∧ row.status = required ∧
      (required = .deleted → row.owner_user_id = user.userId) ∧
      action ∈ allowed (effective_permission db user.userId (lockedDepartment db user.userId) id
        row) := by
  unfold _lock_file_access
  constructor
  · intro h
    obtain ⟨row', hfound, h⟩ := Raise.bind_ok.1 h
    obtain ⟨_, hstatus, h⟩ := Raise.bind_ok.1 h
    obtain ⟨_, howner, h⟩ := Raise.bind_ok.1 h
    obtain ⟨_, hallowed, h⟩ := Raise.bind_ok.1 h
    obtain rfl := Except.ok.inj h
    obtain ⟨hrow, haccess⟩ := Option.filter_eq_some_iff.1 (Raise.found_ok.1 hfound)
    exact ⟨hrow, haccess, Raise.require_ok.1 hstatus, Raise.require_ok.1 howner,
      Raise.require_ok.1 hallowed⟩
  · rintro ⟨hrow, haccess, hstatus, howner, hallowed⟩
    refine Raise.bind_ok.2 ⟨row, Raise.found_ok.2 (Option.filter_eq_some_iff.2 ⟨hrow, haccess⟩), ?_⟩
    refine Raise.bind_ok.2 ⟨(), Raise.require_ok.2 hstatus, ?_⟩
    refine Raise.bind_ok.2 ⟨(), Raise.require_ok.2 howner, ?_⟩
    exact Raise.bind_ok.2 ⟨(), Raise.require_ok.2 hallowed, rfl⟩

theorem file_access_iff {id : String} {f : File} : _file_access_sql db user id f = true ↔
    f.company_id = user.companyId ∧
    (∃ actor, db.users.rows user.userId = some actor ∧ actor.company_id = f.company_id ∧
      actor.active = true) ∧
    (f.owner_user_id = user.userId ∨
      shared db id (fun _ => true) user.userId (accessDepartment db user.userId) = true) := by
  unfold _file_access_sql
  rw [Bool.and_eq_true, Bool.and_eq_true, Bool.or_eq_true, decide_eq_true_eq, decide_eq_true_eq,
    Option.any_eq_true, and_assoc]
  simp only [Bool.and_eq_true, decide_eq_true_eq]

/-! ## Shares -/

/-- A share to the actor in person, or to the department. -/
theorem shared_iff {id user_id : String} {p : Share → Bool} {department : Option String} :
    shared db id p user_id department = true ↔
      (∃ s ∈ db.shares, s.file_id = id ∧ s.active = true ∧ p s = true ∧
        s.target_type = .user ∧ s.target_id = user_id) ∨
      ∃ s ∈ db.shares, s.file_id = id ∧ s.active = true ∧ p s = true ∧
        s.target_type = .department ∧ department = some s.target_id := by
  unfold shared
  rw [List.any_eq_true]
  constructor
  · rintro ⟨s, hs, h⟩
    rw [Bool.and_eq_true, Bool.and_eq_true, Bool.and_eq_true, decide_eq_true_eq] at h
    obtain ⟨⟨⟨hid, hactive⟩, hp⟩, htarget⟩ := h
    cases htype : s.target_type with
    | user =>
      rw [htype] at htarget
      exact .inl ⟨s, hs, hid, hactive, hp, htype, of_decide_eq_true htarget⟩
    | department =>
      rw [htype] at htarget
      obtain ⟨x, hx, hdepartment⟩ := sqlEq_iff.1 htarget
      cases hx
      exact .inr ⟨s, hs, hid, hactive, hp, htype, hdepartment⟩
  · rintro (⟨s, hs, hid, hactive, hp, htype, htarget⟩ | ⟨s, hs, hid, hactive, hp, htype, htarget⟩)
    · refine ⟨s, hs, ?_⟩
      rw [hactive, hp, htype, decide_eq_true hid]
      exact decide_eq_true htarget
    · refine ⟨s, hs, ?_⟩
      rw [hactive, hp, htype, decide_eq_true hid]
      exact sqlEq_iff.2 ⟨s.target_id, rfl, htarget⟩

/-- An active department is the department of the lists and of the actions. -/
theorem lockedDepartment_iff {user_id id : String} : lockedDepartment db user_id = some id ↔
    listedDepartment db user_id = some id ∧
    (∃ actor, db.users.rows user_id = some actor ∧ actor.active = true) ∧
    ∃ d, db.departments.rows id = some d ∧ d.active = true := by
  unfold lockedDepartment listedDepartment
  cases hactor : db.users.rows user_id with
  | none =>
    refine ⟨nofun, ?_⟩
    rintro ⟨h, _⟩
    cases h
  | some actor =>
    rw [Option.bind_some, Option.bind_some, Option.filter_eq_some_iff, Bool.and_eq_true,
      Option.any_eq_true]
    constructor
    · rintro ⟨hid, hactive, hdepartment⟩
      exact ⟨hid, ⟨actor, rfl, hactive⟩, hdepartment⟩
    · rintro ⟨hid, ⟨actor', hsame, hactive⟩, hdepartment⟩
      cases hsame
      exact ⟨hid, hactive, hdepartment⟩

theorem listed_of_access {user_id id : String} (h : accessDepartment db user_id = some id) :
    listedDepartment db user_id = some id := by
  unfold accessDepartment at h
  obtain ⟨actor, hactor, h⟩ := Option.bind_eq_some_iff.1 h
  unfold listedDepartment
  rw [hactor, Option.bind_some]
  exact (Option.filter_eq_some_iff.1 h).1

/-! ## The lists against the actions -/

/-- The actor owns the file, or edits it in person, or no share makes editors of the actor's
department, or this department is active. -/
def EditsAlike (db : Access) (files : Table String File) (user_id id : String) : Prop :=
  (∃ f, files.rows id = some f ∧ f.owner_user_id = user_id) ∨
  (∃ s ∈ db.shares, s.file_id = id ∧ s.active = true ∧ s.permission = .editor ∧
    s.target_type = .user ∧ s.target_id = user_id) ∨
  ∀ s ∈ db.shares, s.file_id = id → s.active = true → s.permission = .editor →
    s.target_type = .department → listedDepartment db user_id = some s.target_id →
    ∃ d, db.departments.rows s.target_id = some d ∧ d.active = true

theorem isEditor_iff {s : Share} : isEditor s = true ↔ s.permission = .editor := by
  unfold isEditor
  rw [decide_eq_true_eq]

theorem editor_of_locked (db : Access) (id user_id : String)
    (h : shared db id isEditor user_id (lockedDepartment db user_id) = true) :
    shared db id isEditor user_id (listedDepartment db user_id) = true := by
  rcases shared_iff.1 h with h | ⟨s, hs, hid, hactive, hp, htype, hdepartment⟩
  · exact shared_iff.2 (.inl h)
  · exact shared_iff.2
      (.inr ⟨s, hs, hid, hactive, hp, htype, (lockedDepartment_iff.1 hdepartment).1⟩)

/-- For an actor who has access and is not the owner, the lists and the actions find the same
editors if and only if the departments of the editors are active. -/
theorem editors_agree {id : String} {f : File} (hf : files.rows id = some f)
    (howner : f.owner_user_id ≠ user.userId) (hactor : ∃ actor,
      db.users.rows user.userId = some actor ∧ actor.active = true) :
    (shared db id isEditor user.userId (listedDepartment db user.userId) = true →
      shared db id isEditor user.userId (lockedDepartment db user.userId) = true) ↔
    EditsAlike db files user.userId id := by
  constructor
  · intro h
    refine .inr ?_
    by_cases hperson : ∃ s ∈ db.shares, s.file_id = id ∧ s.active = true ∧ s.permission = .editor ∧
        s.target_type = .user ∧ s.target_id = user.userId
    · exact .inl hperson
    · refine .inr (fun s hs hid hactive hp htype hlisted => ?_)
      have hlocked := h (shared_iff.2
        (.inr ⟨s, hs, hid, hactive, isEditor_iff.2 hp, htype, hlisted⟩))
      rcases shared_iff.1 hlocked with ⟨t, ht, hid', hactive', hp', hrest⟩ | ⟨t, _, _, _, _, _, hd⟩
      · exact absurd ⟨t, ht, hid', hactive', isEditor_iff.1 hp', hrest⟩ hperson
      · obtain ⟨hlisted', _, hactive'⟩ := lockedDepartment_iff.1 hd
        rw [hlisted] at hlisted'
        rw [Option.some.inj hlisted']
        exact hactive'
  · rintro (⟨f', hf', howner'⟩ | ⟨s, hs, hid, hactive, hp, hrest⟩ | hdepartments) h
    · rw [hf] at hf'
      cases hf'
      exact absurd howner' howner
    · exact shared_iff.2 (.inl ⟨s, hs, hid, hactive, isEditor_iff.2 hp, hrest⟩)
    · rcases shared_iff.1 h with h | ⟨s, hs, hid, hactive, hp, htype, hlisted⟩
      · exact shared_iff.2 (.inl h)
      · have hd := hdepartments s hs hid hactive (isEditor_iff.1 hp) htype hlisted
        exact shared_iff.2 (.inr ⟨s, hs, hid, hactive, hp, htype,
          lockedDepartment_iff.2 ⟨hlisted, hactor, hd⟩⟩)

/-- The flags of a view, with their actions. -/
def flags : List (Action × (Permissions → Bool)) :=
  [(.download, Permissions.download), (.favorite, Permissions.favorite),
    (.rename, Permissions.rename), (.version, Permissions.newVersion), (.move, Permissions.move),
    (.share, Permissions.share), (.trash, Permissions.trash), (.restore, Permissions.restore)]

/-- Each flag of the view says whether its action is accepted. -/
def Agrees (db : Access) (files : Table String File) (user : AuthUserSummary) (view : FileView) :
    Prop :=
  ∀ flag ∈ flags, flag.2 view.permissions = true ↔ Accepts db files user view.id flag.1

theorem mem_list_files {scope : Scope} {folder : Option (Option String)} {query : String}
    {now : Time} {view : FileView} (h : view ∈ _list_files db files user scope folder query now) :
    ∃ id f, files.rows id = some f ∧ _file_access_sql db user id f = true ∧
      inScope db user.userId now scope id f = true ∧
      view = _file_view id f (decide ((id, user.userId) ∈ db.favorites))
        (effective_permission db user.userId (listedDepartment db user.userId) id f)
        user.userId := by
  unfold _list_files at h
  obtain ⟨id, _, h⟩ := List.mem_filterMap.1 h
  obtain ⟨f, hf, h⟩ := Option.bind_eq_some_iff.1 h
  split_ifs at h with hok
  rw [Bool.and_eq_true, Bool.and_eq_true, Bool.and_eq_true] at hok
  exact ⟨id, f, hf, hok.1.1.1, hok.1.1.2, (Option.some.inj h).symm⟩

/-- What is in a scope is in the list of that scope. -/
theorem list_files_complete {scope : Scope} {now : Time} {id : String} {f : File}
    (hf : files.rows id = some f) (haccess : _file_access_sql db user id f = true)
    (hscope : inScope db user.userId now scope id f = true) :
    ∃ view ∈ _list_files db files user scope none "" now, view.id = id := by
  refine ⟨_file_view id f (decide ((id, user.userId) ∈ db.favorites))
    (effective_permission db user.userId (listedDepartment db user.userId) id f) user.userId,
    List.mem_filterMap.2 ⟨id, Table.mem_orderedKeys.2 (by rw [hf]; rfl), ?_⟩, rfl⟩
  rw [hf, Option.bind_some, haccess, hscope]
  rfl

theorem accepts_iff {id : String} {f : File} (hf : files.rows id = some f)
    (haccess : _file_access_sql db user id f = true) {action : Action} :
    Accepts db files user id action ↔ f.status = requiredStatus action ∧
      (requiredStatus action = .deleted → f.owner_user_id = user.userId) ∧
      action ∈ allowed (effective_permission db user.userId (lockedDepartment db user.userId) id
        f) := by
  constructor
  · rintro ⟨row, hrow⟩
    obtain ⟨hf', _, hrest⟩ := lock_file_access_ok.1 hrow
    rw [hf] at hf'
    cases hf'
    exact hrest
  · intro h
    exact ⟨f, lock_file_access_ok.2 ⟨hf, haccess, h⟩⟩

theorem effective_of_owner {id : String} {f : File} (h : f.owner_user_id = user.userId)
    (department : Option String) :
    effective_permission db user.userId department id f = .owner := if_pos h

theorem effective_of_other {id : String} {f : File} (h : f.owner_user_id ≠ user.userId)
    (department : Option String) : effective_permission db user.userId department id f =
      if shared db id isEditor user.userId department then .editor else .viewer := if_neg h

/-- For its owner, the view of a file agrees with the actions in each status. -/
theorem agrees_of_owner {id : String} {f : File} (hf : files.rows id = some f)
    (haccess : _file_access_sql db user id f = true) (howner : f.owner_user_id = user.userId)
    (favorite : Bool) (permission : Permission) :
    Agrees db files user (_file_view id f favorite permission user.userId) := by
  intro flag hflag
  change _ ↔ Accepts db files user id flag.1
  rw [accepts_iff hf haccess, effective_of_owner howner]
  unfold _file_view
  rw [decide_eq_true howner]
  cases hstatus : f.status with
  | active =>
    revert flag
    simp [flags, requiredStatus, allowed]
  | deleted =>
    revert flag
    simp [flags, requiredStatus, allowed, howner]

/-- For another actor, it agrees if and only if the list and the action find the same editors. -/
theorem agrees_of_other {id : String} {f : File} (hf : files.rows id = some f)
    (haccess : _file_access_sql db user id f = true) (howner : f.owner_user_id ≠ user.userId)
    (hstatus : f.status = .active) (favorite : Bool) :
    Agrees db files user (_file_view id f favorite
      (effective_permission db user.userId (listedDepartment db user.userId) id f) user.userId) ↔
    (shared db id isEditor user.userId (listedDepartment db user.userId) = true →
      shared db id isEditor user.userId (lockedDepartment db user.userId) = true) := by
  have hsame : ∀ view : FileView, view.id = id → (Agrees db files user view ↔
      ∀ flag ∈ flags, flag.2 view.permissions = true ↔ f.status = requiredStatus flag.1 ∧
        (requiredStatus flag.1 = .deleted → f.owner_user_id = user.userId) ∧
        flag.1 ∈ allowed (effective_permission db user.userId (lockedDepartment db user.userId) id
          f)) := by
    rintro view rfl
    unfold Agrees
    simp only [accepts_iff hf haccess]
  rw [hsame _ rfl, effective_of_other howner, effective_of_other howner, hstatus]
  have hlocked := editor_of_locked db id user.userId
  unfold _file_view
  rw [decide_eq_false howner, hstatus]
  cases hlist : shared db id isEditor user.userId (listedDepartment db user.userId) with
  | false =>
    have hno : shared db id isEditor user.userId (lockedDepartment db user.userId) = false :=
      Bool.eq_false_of_not_eq_true (fun h => by rw [hlist] at hlocked; cases hlocked h)
    rw [hno]
    simp [flags, requiredStatus, allowed]
  | true =>
    cases hlock : shared db id isEditor user.userId (lockedDepartment db user.userId) with
    | false => simp [flags, requiredStatus, allowed]
    | true => simp [flags, requiredStatus, allowed]

/-- What an action accepts is in a list of the actor. -/
theorem listed_of_accepted (now : Time) {id : String} {action : Action} {required : Status}
    {row : File} (h : _lock_file_access db files user id action required = .ok row) :
    ∃ scope, ∃ view ∈ _list_files db files user scope none "" now, view.id = id := by
  obtain ⟨hf, haccess, hstatus, hdeleted, _⟩ := lock_file_access_ok.1 h
  cases required with
  | deleted =>
    refine ⟨.trash, list_files_complete hf haccess ?_⟩
    unfold inScope
    rw [decide_eq_true (hdeleted rfl), decide_eq_true hstatus]
    rfl
  | active =>
    by_cases howner : row.owner_user_id = user.userId
    · refine ⟨.mine, list_files_complete hf haccess ?_⟩
      unfold inScope
      rw [decide_eq_true howner, decide_eq_true hstatus]
      rfl
    · have hshared := (file_access_iff.1 haccess).2.2.resolve_left howner
      rcases shared_iff.1 hshared with ⟨s, hs, hid, hactive, _, htype, htarget⟩ |
        ⟨s, hs, hid, hactive, _, htype, hdepartment⟩
      · refine ⟨.shared, list_files_complete hf haccess ?_⟩
        have hto : shareTo db id .user (some user.userId) = true := by
          refine List.any_eq_true.2 ⟨s, hs, ?_⟩
          rw [hactive, decide_eq_true hid, decide_eq_true htype,
            sqlEq_iff.2 ⟨s.target_id, rfl, congrArg some htarget.symm⟩]
          rfl
        unfold inScope
        dsimp only
        rw [decide_eq_true howner, decide_eq_true hstatus, hto]
        rfl
      · refine ⟨.department, list_files_complete hf haccess ?_⟩
        have hto : shareTo db id .department (listedDepartment db user.userId) = true := by
          refine List.any_eq_true.2 ⟨s, hs, ?_⟩
          rw [hactive, decide_eq_true hid, decide_eq_true htype,
            sqlEq_iff.2 ⟨s.target_id, rfl, listed_of_access hdepartment⟩]
          rfl
        unfold inScope
        dsimp only
        rw [decide_eq_true hstatus, hto]
        rfl

/-- The flags of a view that a list returns say what the actions accept, if and only if no editor
comes from a department that is not active. And what is in no list is refused for each action. -/
theorem listed_permissions_agree (db : Access) (files : Table String File)
    (user : AuthUserSummary) (now : Time) :
    (∀ scope folder query, ∀ view ∈ _list_files db files user scope folder query now,
      Agrees db files user view ↔ EditsAlike db files user.userId view.id) ∧
    ∀ id, (∀ scope, ∀ view ∈ _list_files db files user scope none "" now, view.id ≠ id) →
      ∀ action required row, _lock_file_access db files user id action required ≠ .ok row := by
  constructor
  · intro scope folder query view hview
    obtain ⟨id, f, hf, haccess, hscope, rfl⟩ := mem_list_files hview
    by_cases howner : f.owner_user_id = user.userId
    · exact ⟨fun _ => .inl ⟨f, hf, howner⟩, fun _ => agrees_of_owner hf haccess howner _ _⟩
    · have hstatus : f.status = .active := by
        unfold inScope at hscope
        cases scope with
        | mine =>
          rw [Bool.and_eq_true, decide_eq_true_eq] at hscope
          exact absurd hscope.1 howner
        | shared =>
          rw [Bool.and_eq_true, Bool.and_eq_true, decide_eq_true_eq, decide_eq_true_eq] at hscope
          exact hscope.1.2
        | department =>
          rw [Bool.and_eq_true, decide_eq_true_eq] at hscope
          exact hscope.1
        | recent =>
          rw [Bool.and_eq_true, decide_eq_true_eq] at hscope
          exact hscope.1
        | favorites =>
          rw [Bool.and_eq_true, decide_eq_true_eq] at hscope
          exact hscope.1
        | trash =>
          rw [Bool.and_eq_true, decide_eq_true_eq] at hscope
          exact absurd hscope.1 howner
      obtain ⟨_, ⟨actor, hactor, _, hactive⟩, _⟩ := file_access_iff.1 haccess
      rw [agrees_of_other hf haccess howner hstatus]
      exact editors_agree hf howner ⟨actor, hactor, hactive⟩
  · intro id hnone action required row hok
    obtain ⟨scope, view, hview, hid⟩ := listed_of_accepted now hok
    exact hnone scope view hview hid

/-! ## A department that is closed -/

def ben : AuthUserSummary := ⟨"ben", "acme"⟩

/-- Ana's file: Ben may view it, and the sales department, his own, may edit it. -/
def sales (active : Bool) : Access where
  users := (Table.empty.set "ana" ⟨"acme", none, true⟩).set "ben" ⟨"acme", some "sales", true⟩
  departments := Table.empty.set "sales" ⟨"acme", active⟩
  shares := [⟨"report", .user, "ben", .viewer, true⟩, ⟨"report", .department, "sales", .editor, true⟩]
  favorites := []

def anasFiles : Table String File :=
  Table.empty.set "report"
    ⟨"acme", "ana", none, "report.pdf", "application/pdf", 10, "sum", .active, 1, 0, 0, 0⟩

def bensView : FileView :=
  ⟨"report", "report.pdf", "application/pdf", 10, .active, none, 1, 0, "ana", false, 0, 0,
    ⟨true, true, true, true, false, false, false, false⟩⟩

/-- While the department is active, the list says what Ben may do. -/
theorem bens_view_agrees : Agrees (sales true) anasFiles ben bensView := by
  have hview : bensView ∈ _list_files (sales true) anasFiles ben .shared none "" 0 := by
    decide +kernel
  refine ((listed_permissions_agree (sales true) anasFiles ben 0).1 .shared none "" bensView
    hview).2 (.inr (.inr (fun s _ _ _ _ _ hlisted => ?_)))
  have hsales : listedDepartment (sales true) ben.userId = some "sales" := by decide +kernel
  rw [hsales] at hlisted
  rw [← Option.some.inj hlisted]
  exact ⟨⟨"acme", true⟩, rfl, rfl⟩

/-- When it is closed, the list still says that Ben may rename the file, and the action refuses. -/
theorem a_closed_department_still_edits :
    bensView ∈ _list_files (sales false) anasFiles ben .shared none "" 0 ∧
    bensView.permissions.rename = true ∧ bensView.permissions.newVersion = true ∧
    _lock_file_access (sales false) anasFiles ben "report" .rename .active = .error forbidden ∧
    _lock_file_access (sales false) anasFiles ben "report" .version .active = .error forbidden := by
  refine ⟨by decide +kernel, rfl, rfl, ?_, ?_⟩
  · rfl
  · rfl

end moaworks.workspace
