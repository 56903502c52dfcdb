-- The settings that the collection runs with, over whole runs: where requests do not overlap, they
-- are the tested ones; and runs in which overlapping requests break each part of the law.
import MoaWorks.ExternalImportLaws
import MoaWorks.ExternalSettings

namespace moaworks.mail_external

variable {is_ip : String → Bool}
variable {w w' : World} {db : Db} {account_id : String} {i : Nat}

/-! ## The invariant -/

/-- What a request knows between its transactions. -/
def RequestInv (w : World) : Request → Prop
  | .tested _ _ _ read host _ => host = read.host
  | .deleting account_id _ => activeJobs w.store.db account_id = ∅
  | _ => True

structure World.SettingsInv (is_ip : String → Bool) (w : World) : Prop where
  law : UsesTested w
  validated : ∀ id a, w.store.db.accounts.rows id = some a → Validated is_ip a
  requests : ∀ request ∈ w.requests, RequestInv w request
  runs : ∀ run context, (w.runs run).context = some context →
    context.account.connection_status = .success ∧ context.account.deleted_at = none

theorem lastTest_append (tests : List (String × Connection)) (id account_id : String)
    (connection : Connection) : lastTest (tests ++ [(account_id, connection)]) id =
      if id = account_id then some connection else lastTest tests id := by
  unfold lastTest
  rw [List.filter_append]
  split_ifs with hid
  · subst hid
    simp
  · have hne : ¬ account_id = id := fun heq => hid heq.symm
    simp [hne]

/-- A write that starts no job of an account that is being deleted, and tests no account. -/
theorem settings_setDb (h : w.SettingsInv is_ip) (hstore : w'.store.db = db)
    (htests : w'.tests = w.tests) (hconnects : w'.connects = w.connects)
    (hdeletions : w'.deletions = w.deletions) (hruns : w'.runs = w.runs)
    (haccounts : ∀ id a', db.accounts.rows id = some a' → Validated is_ip a' ∧
      (a'.connection_status = .success → ∃ a, w.store.db.accounts.rows id = some a ∧
        a.connection_status = .success ∧ a'.connection = a.connection))
    (hrequests : ∀ request ∈ w'.requests, RequestInv w' request) : w'.SettingsInv is_ip := by
  refine ⟨⟨fun id a' ha' hsuccess => ?_, ?_, ?_⟩, fun id a' ha' => ?_, hrequests, ?_⟩
  · rw [hstore] at ha'
    obtain ⟨a, ha, hstatus, hconnection⟩ := (haccounts id a' ha').2 hsuccess
    rw [htests, hconnection]
    exact h.law.tested id a ha hstatus
  · rw [hconnects]
    exact h.law.connects
  · rw [hdeletions]
    exact h.law.deletions
  · rw [hstore] at ha'
    exact (haccounts id a' ha').1
  · rw [hruns]
    exact h.runs

/-- The accounts after a write that changes no settings. -/
theorem accounts_of_keeps (h : w.SettingsInv is_ip) (hkeeps : Keeps w.store.db db) (id : String)
    (a' : Account) (ha' : db.accounts.rows id = some a') : Validated is_ip a' ∧
      (a'.connection_status = .success → ∃ a, w.store.db.accounts.rows id = some a ∧
        a.connection_status = .success ∧ a'.connection = a.connection) := by
  obtain ⟨a, ha, hconnection, hstatus⟩ := hkeeps.accounts id a' ha'
  refine ⟨?_, fun hsuccess => ⟨a, ha, hstatus.symm.trans hsuccess, hconnection⟩⟩
  unfold Validated
  rw [hconnection]
  exact h.validated id a ha

/-- The accounts after one of them was written. -/
theorem accounts_of_set (h : w.SettingsInv is_ip) {new : Account} (hvalidated : Validated is_ip new)
    (hnew : new.connection_status = .success → ∃ a, w.store.db.accounts.rows account_id = some a ∧
      a.connection_status = .success ∧ new.connection = a.connection) (id : String) (a' : Account)
    (ha' : (w.store.db.setAccount account_id new).accounts.rows id = some a') :
    Validated is_ip a' ∧ (a'.connection_status = .success →
      ∃ a, w.store.db.accounts.rows id = some a ∧ a.connection_status = .success ∧
        a'.connection = a.connection) := by
  unfold Db.setAccount at ha'
  rw [Table.rows_set] at ha'
  split_ifs at ha' with hid
  · subst hid
    cases ha'
    exact ⟨hvalidated, hnew⟩
  · exact accounts_of_keeps h (.refl w.store.db) id a' ha'

theorem requestInv_of_jobs {request : Request} (h : RequestInv w request)
    (hjobs : w'.store.db.jobs = w.store.db.jobs) : RequestInv w' request := by
  cases request with
  | deleting account_id actor =>
    unfold RequestInv at h ⊢
    unfold activeJobs at h ⊢
    rw [hjobs]
    exact h
  | _ => exact h

/-! ## The steps -/

/-- The first of the requests ends, and nothing else happens. -/
theorem settings_ended (h : w.SettingsInv is_ip) (i : Nat) :
    ({ w with requests := w.requests.eraseIdx i } : World).SettingsInv is_ip :=
  ⟨⟨h.law.tested, h.law.connects, h.law.deletions⟩, h.validated, fun request hrequest => by
    cases request <;> exact h.requests _ (List.mem_of_mem_eraseIdx hrequest), h.runs⟩

theorem settings_testing (h : w.SettingsInv is_ip) {actor : AuthUserSummary} {started : Time}
    {read : Connection} {host : String}
    (hsettings : test_settings is_ip account_id actor w.store.db = some (read, host))
    (passes : Bool) :
    (w.setRequest i (.tested account_id actor started read host passes)).SettingsInv is_ip := by
  refine ⟨⟨h.law.tested, h.law.connects, h.law.deletions⟩, h.validated,
    fun request hrequest => ?_, h.runs⟩
  rcases List.mem_or_eq_of_mem_set hrequest with hbefore | rfl
  · have hinv := h.requests request hbefore
    cases request <;> exact hinv
  · unfold test_settings at hsettings
    cases ha : ownAccount w.store.db actor account_id with
    | none =>
      rw [ha] at hsettings
      cases hsettings
    | some a =>
      rw [ha] at hsettings
      dsimp only at hsettings
      cases hhost : validate_syntax is_ip a.connection.host a.connection.port
          a.connection.tls_mode with
      | error e =>
        rw [hhost] at hsettings
        cases hsettings
      | ok value =>
        rw [hhost] at hsettings
        cases hsettings
        obtain ⟨_, _, _, hvalidated⟩ := h.validated account_id a (ownAccount_eq_some ha).1
        exact validate_syntax_again hvalidated hhost

theorem record_test_rows (account_id : String) (actor : AuthUserSummary) (passed : Bool)
    (now : Time) (db : Db) (id : String) (a' : Account)
    (h : (record_test account_id actor passed now db).accounts.rows id = some a') :
    ∃ a, db.accounts.rows id = some a ∧ a'.connection = a.connection ∧
      (a'.connection_status = a.connection_status ∨
        id = account_id ∧ a'.connection_status = if passed then .success else .failed) := by
  unfold record_test at h
  dsimp only at h
  rw [Table.rows_update] at h
  obtain ⟨a, ha, rfl⟩ := Option.map_eq_some_iff.1 h
  refine ⟨a, ha, ?_⟩
  split_ifs with htested hpassed hpassed
  · simp only [Bool.and_eq_true, decide_eq_true_eq] at htested
    subst hpassed
    exact ⟨rfl, .inr ⟨htested.1.1, rfl⟩⟩
  · simp only [Bool.and_eq_true, decide_eq_true_eq] at htested
    unfold testedAccount
    rw [if_neg hpassed]
    exact ⟨rfl, .inr ⟨htested.1.1, rfl⟩⟩
  · exact ⟨rfl, .inl rfl⟩
  · exact ⟨rfl, .inl rfl⟩

theorem settings_passed (h : w.SettingsInv is_ip) {actor : AuthUserSummary} {started : Time}
    {read : Connection} {host : String}
    (hrequest : w.requests[i]? = some (.tested account_id actor started read host true))
    (hmeets : ∀ a, w.store.db.accounts.rows account_id = some a → a.connection = read) :
    ({ ({ w with requests := w.requests.eraseIdx i } : World).setDb
        (record_test account_id actor true started w.store.db) with
      tests := w.tests ++ [(account_id, { read with host := host })] } : World).SettingsInv
        is_ip := by
  have hhost : host = read.host := h.requests _ (List.mem_of_getElem? hrequest)
  subst hhost
  refine ⟨⟨fun id a' ha' hsuccess => ?_, h.law.connects, h.law.deletions⟩, fun id a' ha' => ?_,
    fun request hmem => ?_, h.runs⟩
  · obtain ⟨a, ha, hconnection, hstatus⟩ := record_test_rows _ _ _ _ _ id a' ha'
    change lastTest (w.tests ++ [(account_id, read)]) id = _
    rw [lastTest_append, hconnection]
    split_ifs with hid
    · subst hid
      rw [hmeets a ha]
    · rcases hstatus with hsame | ⟨heq, _⟩
      · exact h.law.tested id a ha (hsame.symm.trans hsuccess)
      · exact absurd heq hid
  · obtain ⟨a, ha, hconnection, _⟩ := record_test_rows _ _ _ _ _ id a' ha'
    unfold Validated
    rw [hconnection]
    exact h.validated id a ha
  · exact requestInv_of_jobs (h.requests request (List.mem_of_mem_eraseIdx hmem)) rfl

theorem settings_failed (h : w.SettingsInv is_ip) (i : Nat) (account_id : String)
    (actor : AuthUserSummary) (started : Time) :
    (({ w with requests := w.requests.eraseIdx i } : World).setDb
      (record_test account_id actor false started w.store.db)).SettingsInv is_ip := by
  refine settings_setDb h rfl rfl rfl rfl rfl (fun id a' ha' => ?_) (fun request hmem => ?_)
  · obtain ⟨a, ha, hconnection, hstatus⟩ := record_test_rows _ _ _ _ _ id a' ha'
    unfold Validated
    rw [hconnection]
    refine ⟨h.validated id a ha, fun hsuccess => ?_⟩
    rcases hstatus with hsame | ⟨_, hfailed⟩
    · exact ⟨a, ha, hsame.symm.trans hsuccess, rfl⟩
    · rw [hfailed] at hsuccess
      cases hsuccess
  · exact requestInv_of_jobs (h.requests request (List.mem_of_mem_eraseIdx hmem)) rfl

theorem settings_queueing (h : w.SettingsInv is_ip) (hmeets : NotDeleting w account_id)
    {job_id : String} {job : CollectionJob} (haccount : job.account_id = account_id)
    (hinsert : insert_job job_id job w.store.db = some db) :
    (({ w with requests := w.requests.eraseIdx i } : World).setDb db).SettingsInv is_ip := by
  have hdb := insert_job_eq_some hinsert
  subst hdb
  refine settings_setDb h rfl rfl rfl rfl rfl
    (fun id a' ha' => accounts_of_keeps h (.refl w.store.db) id a' ha') (fun request hmem => ?_)
  have hbefore := List.mem_of_mem_eraseIdx hmem
  have hinv := h.requests request hbefore
  cases request with
  | deleting id actor =>
    change activeJobs (w.store.db.setJob job_id job) id = ∅
    have hempty : activeJobs w.store.db id = ∅ := hinv
    rw [activeJobs_eq_empty] at hempty ⊢
    intro k row hrow hid
    unfold Db.setJob at hrow
    rw [Table.rows_set] at hrow
    split_ifs at hrow
    · cases hrow
      rw [haccount] at hid
      subst hid
      exact absurd hbefore (hmeets actor)
    · exact hempty k row hrow hid
  | _ => exact hinv

theorem settings_deleting (h : w.SettingsInv is_ip) {actor : AuthUserSummary}
    (hrequest : w.requests[i]? = some (.deleting account_id actor)) {now : Time}
    (hdb : mark_deleted account_id actor now w.store.db = .ok db) :
    ({ ({ w with requests := w.requests.eraseIdx i } : World).setDb db with
      deletions := w.deletions ++ [⟨account_id, activeJobs w.store.db account_id⟩] } :
        World).SettingsInv is_ip := by
  obtain ⟨a, ha, rfl⟩ := mark_deleted_ok hdb
  have hempty : activeJobs w.store.db account_id = ∅ := h.requests _ (List.mem_of_getElem? hrequest)
  have hwritten : (({ w with requests := w.requests.eraseIdx i } : World).setDb
      (w.store.db.setAccount account_id { a with
        enabled := false, deleted_at := some now, version := a.version + 1 })).SettingsInv
          is_ip := by
    refine settings_setDb h rfl rfl rfl rfl rfl ?_ (fun request hmem => ?_)
    · exact accounts_of_set h (h.validated account_id a ha) (fun hsuccess => ⟨a, ha, hsuccess, rfl⟩)
    · exact requestInv_of_jobs (h.requests request (List.mem_of_mem_eraseIdx hmem)) rfl
  refine ⟨⟨hwritten.law.tested, hwritten.law.connects, fun deletion hmem => ?_⟩,
    hwritten.validated, fun request hmem => ?_, hwritten.runs⟩
  · rcases List.mem_append.1 hmem with hbefore | hnew
    · exact h.law.deletions deletion hbefore
    · obtain rfl := List.mem_singleton.1 hnew
      exact hempty
  · exact requestInv_of_jobs (hwritten.requests request hmem) rfl

theorem settings_proceed (h : w.SettingsInv is_ip) {passes : Bool} {job_id : String} {now : Time}
    (hmeets : Meets w (.proceed i passes job_id now))
    (hstep : proceed is_ip w i passes job_id now = some w') : w'.SettingsInv is_ip := by
  unfold proceed at hstep
  dsimp only [Meets] at hmeets
  cases hrequest : w.requests[i]? with
  | none =>
    rw [hrequest] at hstep
    cases hstep
  | some request =>
    rw [hrequest] at hstep hmeets
    cases request with
    | testing account_id actor started =>
      dsimp only at hstep
      split at hstep
      · cases hstep
        exact settings_ended h i
      · rename_i read host hsettings
        cases hstep
        exact settings_testing h hsettings passes
    | tested account_id actor started read host passed =>
      cases passed with
      | true =>
        cases hstep
        exact settings_passed h hrequest hmeets
      | false =>
        cases hstep
        exact settings_failed h i account_id actor started
    | queueing account_id actor =>
      dsimp only at hstep
      split at hstep
      · cases hstep
        exact settings_ended h i
      · rename_i db hinsert
        cases hstep
        exact settings_queueing h hmeets rfl hinsert
    | deleting account_id actor =>
      dsimp only at hstep
      split at hstep
      · cases hstep
        exact settings_ended h i
      · rename_i db hdb
        cases hstep
        exact settings_deleting h hrequest hdb

/-- A new request without a claim on the jobs. -/
theorem settings_request (h : w.SettingsInv is_ip) {request : Request} (hnew : RequestInv w request) :
    ({ w with requests := w.requests ++ [request] } : World).SettingsInv is_ip := by
  refine ⟨⟨h.law.tested, h.law.connects, h.law.deletions⟩, h.validated, fun r hr => ?_, h.runs⟩
  rcases List.mem_append.1 hr with hbefore | hlast
  · exact requestInv_of_jobs (h.requests r hbefore) rfl
  · obtain rfl := List.mem_singleton.1 hlast
    exact requestInv_of_jobs hnew rfl

theorem settings_setDrop (h : w.SettingsInv is_ip) (account_id : String) (d : Maildrop String) :
    (w.setDrop account_id d).SettingsInv is_ip :=
  ⟨⟨h.law.tested, h.law.connects, h.law.deletions⟩, h.validated,
    fun request hrequest => requestInv_of_jobs (h.requests request hrequest) rfl, h.runs⟩

theorem settings_turn (h : w.SettingsInv is_ip) {run : Nat} {act : Act}
    (hmeets : Meets w (.turn run act)) {phase : Phase} {store : Store}
    (hturn : turn act (w.runs run) w.store = some (phase, store)) :
    ({ w with
      store := store
      runs := fun k => if k = run then phase else w.runs k
      connects := w.connects ++ connectOf w act (w.runs run) } : World).SettingsInv is_ip := by
  have haccounts : ∀ id a', store.db.accounts.rows id = some a' →
      ∃ a, w.store.db.accounts.rows id = some a ∧ a'.connection = a.connection ∧
        a'.connection_status = a.connection_status := by
    by_cases hact : ∃ due now ids, w.runs run = .enqueuing due ∧ act = .enqueue now ids
    · obtain ⟨due, now, ids, hrun, rfl⟩ := hact
      rw [hrun] at hturn
      cases hturn
      rw [enqueue_accounts]
      exact (Keeps.refl w.store.db).accounts
    · refine (keeps_turn hturn (fun due now ids hrun heq => ?_)).accounts
      exact hact ⟨due, now, ids, hrun, heq⟩
  refine ⟨⟨fun id a' ha' hsuccess => ?_, fun connect hconnect => ?_, h.law.deletions⟩,
    fun id a' ha' => ?_, fun request hrequest => ?_, fun k context hcontext => ?_⟩
  · obtain ⟨a, ha, hconnection, hstatus⟩ := haccounts id a' ha'
    rw [hconnection]
    exact h.law.tested id a ha (hstatus.symm.trans hsuccess)
  · rcases List.mem_append.1 hconnect with hbefore | hnew
    · exact h.law.connects connect hbefore
    · cases hrun : w.runs run with
      | collecting c =>
        rw [hrun] at hnew
        cases act with
        | open_connection listing =>
          obtain rfl := List.mem_singleton.1 hnew
          dsimp only [Meets] at hmeets
          rw [hrun] at hmeets
          obtain ⟨a, ha, hconnection, hstatus, hdeleted⟩ := hmeets
          obtain ⟨hsuccess, hnone⟩ := h.runs run c.context (by rw [hrun]; rfl)
          exact ⟨a, ha, hdeleted.trans hnone, hstatus.trans hsuccess, hconnection⟩
        | _ => exact absurd hnew List.not_mem_nil
      | _ =>
        rw [hrun] at hnew
        exact absurd hnew List.not_mem_nil
  · obtain ⟨a, ha, hconnection, _⟩ := haccounts id a' ha'
    unfold Validated
    rw [hconnection]
    exact h.validated id a ha
  · have hinv := h.requests request hrequest
    cases request with
    | deleting account_id actor =>
      change activeJobs store.db account_id = ∅
      by_cases hact : ∃ due now ids, w.runs run = .enqueuing due ∧ act = .enqueue now ids
      · obtain ⟨due, now, ids, hrun, rfl⟩ := hact
        dsimp only [Meets] at hmeets
        rw [hrun] at hturn hmeets
        cases hturn
        refine enqueue_jobs now due ids (fun account haccount heq => ?_) hinv
        exact hmeets account haccount actor (heq ▸ hrequest)
      · refine (keeps_turn hturn (fun due now ids hrun heq => ?_)).activeJobs hinv
        exact hact ⟨due, now, ids, hrun, heq⟩
    | _ => exact hinv
  · change (if k = run then phase else w.runs k).context = some context at hcontext
    split_ifs at hcontext with hk
    · rcases turn_context hturn hcontext with hbefore | ⟨job, hrun, rfl, hread⟩
      · exact h.runs run context hbefore
      · dsimp only [Meets] at hmeets
        rw [hrun] at hmeets
        refine ⟨hmeets context hread, ?_⟩
        unfold _context at hread
        split at hread
        · rename_i account owner hown _
          cases hread
          exact (ownAccount_eq_some hown).2
        · cases hread
    · exact h.runs k context hcontext

theorem settings_step (h : w.SettingsInv is_ip) {event : Event} (hmeets : Meets w event)
    (hstep : (machine is_ip).step w event = some w') : w'.SettingsInv is_ip := by
  cases event with
  | create_account account_id actor payload =>
    dsimp only [machine, step] at hstep
    obtain ⟨db, hdb, rfl⟩ := Option.map_eq_some_iff.1 hstep
    obtain ⟨a, rfl, hstatus, hvalidated⟩ := create_account_ok (Raise.ok_of_toOption hdb)
    refine settings_setDb h rfl rfl rfl rfl rfl (accounts_of_set h hvalidated fun hsuccess => ?_)
      (fun request hrequest => requestInv_of_jobs (h.requests request hrequest) rfl)
    rw [hstatus] at hsuccess
    cases hsuccess
  | update_account account_id actor payload expectedVersion =>
    dsimp only [machine, step] at hstep
    obtain ⟨db, hdb, rfl⟩ := Option.map_eq_some_iff.1 hstep
    obtain ⟨old, new, hold, rfl, hvalidated, hcases⟩ :=
      update_account_ok (Raise.ok_of_toOption hdb)
    refine settings_setDb h rfl rfl rfl rfl rfl (accounts_of_set h hvalidated fun hsuccess => ?_)
      (fun request hrequest => requestInv_of_jobs (h.requests request hrequest) rfl)
    rcases hcases with huntested | ⟨hstatus, hconnection⟩
    · rw [huntested] at hsuccess
      cases hsuccess
    · exact ⟨old, hold, hstatus.symm.trans hsuccess, hconnection⟩
  | test_account account_id actor now =>
    dsimp only [machine, step] at hstep
    obtain ⟨db, hdb, rfl⟩ := Option.map_eq_some_iff.1 hstep
    obtain ⟨a, ha, rfl⟩ := reserve_test_attempt_ok (Raise.ok_of_toOption hdb)
    have hwritten : (w.setDb (w.store.db.setAccount account_id
        { a with last_test_at := some now })).SettingsInv is_ip := by
      refine settings_setDb h rfl rfl rfl rfl rfl
        (accounts_of_set h (h.validated account_id a ha) fun hsuccess => ?_)
        (fun request hrequest => requestInv_of_jobs (h.requests request hrequest) rfl)
      exact ⟨a, ha, hsuccess, rfl⟩
    exact settings_request hwritten trivial
  | queue_collect account_id actor =>
    dsimp only [machine, step] at hstep
    split at hstep
    · cases hstep
    · split_ifs at hstep
      cases hstep
      exact settings_request h trivial
  | delete_account account_id actor =>
    dsimp only [machine, step] at hstep
    split_ifs at hstep with hempty
    cases hstep
    exact settings_request h hempty
  | proceed i passes job_id now => exact settings_proceed h hmeets hstep
  | turn run act =>
    dsimp only [machine, step] at hstep
    obtain ⟨⟨phase, store⟩, hturn, rfl⟩ := Option.map_eq_some_iff.1 hstep
    exact settings_turn h hmeets hturn
  | deliver account_id uidl =>
    dsimp only [machine, step] at hstep
    split_ifs at hstep
    cases hstep
    exact settings_setDrop h account_id _
  | remove account_id uidl =>
    cases hstep
    exact settings_setDrop h account_id _
  | cut account_id session =>
    cases hstep
    exact settings_setDrop h account_id _
  | moved account_id drop =>
    cases hstep
    exact settings_setDrop h account_id _

/-- In each run whose steps meet the condition, only tested settings are used, and no account goes
while a job of it is active. -/
theorem tested_settings_are_used {w : World} (h : (machine is_ip).Reach Meets w) :
    UsesTested w := by
  refine (h.invariant (I := World.SettingsInv is_ip) (fun w hw => ?_)
    (fun w event w' _ hinv hmeets hstep => settings_step hinv hmeets hstep)).law
  obtain ⟨haccounts, _, _, _, _, hruns, hrequests, _, hconnects, hdeletions⟩ := hw
  refine ⟨⟨fun id a ha => ?_, fun connect hconnect => ?_, fun deletion hdeletion => ?_⟩,
    fun id a ha => ?_, fun request hrequest => ?_, fun run context hcontext => ?_⟩
  · rw [haccounts] at ha
    cases ha
  · rw [hconnects] at hconnect
    exact absurd hconnect List.not_mem_nil
  · rw [hdeletions] at hdeletion
    exact absurd hdeletion List.not_mem_nil
  · rw [haccounts] at ha
    cases ha
  · rw [hrequests] at hrequest
    exact absurd hrequest List.not_mem_nil
  · rw [hruns] at hcontext
    cases hcontext

/-! ## Runs -/

def Request.deletes (account_id : String) : Request → Bool
  | .deleting id _ => decide (id = account_id)
  | _ => false

theorem notDeleting_iff :
    NotDeleting w account_id ↔ ∀ request ∈ w.requests, request.deletes account_id = false := by
  constructor
  · intro h request hrequest
    cases request with
    | deleting id actor => exact decide_eq_false fun heq => h actor (heq ▸ hrequest)
    | _ => rfl
  · intro h actor hrequest
    exact absurd rfl (of_decide_eq_false (h _ hrequest))

instance (w : World) (account_id : String) : Decidable (NotDeleting w account_id) :=
  decidable_of_iff _ notDeleting_iff.symm

instance (x : Option Account) (p : Account → Prop) [DecidablePred p] :
    Decidable (∀ a, x = some a → p a) :=
  inferInstanceAs (Decidable (∀ a ∈ x, p a))

instance (x : Option Account) (p : Account → Prop) [DecidablePred p] :
    Decidable (∃ a, x = some a ∧ p a) :=
  inferInstanceAs (Decidable (∃ a ∈ x, p a))

instance (x : Option Context) (p : Context → Prop) [DecidablePred p] :
    Decidable (∀ context, x = some context → p context) :=
  inferInstanceAs (Decidable (∀ context ∈ x, p context))

instance (w : World) (event : Event) : Decidable (Meets w event) := by
  unfold Meets
  split
  · split <;> infer_instance
  · split <;> infer_instance
  · split <;> infer_instance
  · split <;> infer_instance
  · infer_instance

theorem start_anasWorld : (machine is_ip).Start anasWorld :=
  ⟨rfl, rfl, rfl, rfl, fun _ => rfl, fun _ => rfl, rfl, rfl, rfl, rfl⟩

def settledCollection : World :=
  ((machine (fun _ => false)).runWithin Meets anasWorld collected).get (by decide)

/-- A collection between requests that do not overlap connects with the tested settings. -/
theorem the_collection_uses_tested : settledCollection.connects.length = 1 ∧
    UsesTested settledCollection :=
  ⟨by decide +kernel, tested_settings_are_used
    ((Machine.Reach.start start_anasWorld).runWithin (Option.some_get _).symm)⟩

def movedAccount : AccountPayload := { popAccount with host := "pop.elsewhere.com" }

/-- The settings change while a test of the old ones is on its way. -/
def mistested : List Event :=
  [.create_account "pop" ana popAccount, .test_account "pop" ana 0, .proceed 0 true "" 0,
    .update_account "pop" ana movedAccount 1, .proceed 0 true "" 1]

/-- The settings change after the job was queued. -/
def stale : List Event :=
  queued ++ [.update_account "pop" ana movedAccount 1, .turn 0 (.select_due 3),
    .turn 0 (.enqueue 3 []), .turn 0 (.claim 4 []), .turn 0 .read_context,
    .turn 0 (.open_connection none)]

/-- A job is queued between the two transactions of a deletion. -/
def overtaken : List Event :=
  [.create_account "pop" ana popAccount, .test_account "pop" ana 0, .proceed 0 true "" 0,
    .proceed 0 true "" 1, .delete_account "pop" ana, .queue_collect "pop" ana,
    .proceed 1 true "job" 2, .proceed 0 true "" 3]

theorem reachable_worldAfter (events : List Event)
    (h : ((machine (fun _ => false)).run anasWorld events).isSome = true) :
    (machine (fun _ => false)).Reachable (worldAfter events) := by
  obtain ⟨w, hw⟩ := Option.isSome_iff_exists.1 h
  unfold worldAfter
  rw [hw]
  exact Machine.reachable_of_run start_anasWorld hw

/-- Overlapping requests break each part of the law. -/
theorem untested_settings_are_used :
    (∃ w, (machine (fun _ => false)).Reachable w ∧ ¬ Tested w) ∧
    (∃ w, (machine (fun _ => false)).Reachable w ∧ ∃ connect ∈ w.connects, ¬ connect.Lawful) ∧
    ∃ w, (machine (fun _ => false)).Reachable w ∧ ∃ deletion ∈ w.deletions, deletion.jobs ≠ ∅ := by
  refine ⟨⟨worldAfter mistested, reachable_worldAfter mistested (by decide +kernel), ?_⟩,
    ⟨worldAfter stale, reachable_worldAfter stale (by decide +kernel), ?_⟩,
    ⟨worldAfter overtaken, reachable_worldAfter overtaken (by decide +kernel), ?_⟩⟩
  · intro htested
    have hrow : ((worldAfter mistested).store.db.accounts.rows "pop").any (fun a =>
        decide (a.connection_status = .success) &&
        decide (lastTest (worldAfter mistested).tests "pop" ≠ some a.connection)) = true := by
      decide +kernel
    obtain ⟨a, ha, hwrong⟩ := (Option.any_eq_true _ _).1 hrow
    simp only [Bool.and_eq_true, decide_eq_true_eq] at hwrong
    exact hwrong.2 (htested "pop" a ha hwrong.1)
  · have hconnects : (worldAfter stale).connects.any (fun connect =>
        connect.row.any (fun a => decide (a.connection_status = .untested))) = true := by
      decide +kernel
    obtain ⟨connect, hmem, hrow⟩ := List.any_eq_true.1 hconnects
    refine ⟨connect, hmem, fun hlawful => ?_⟩
    obtain ⟨a, ha, _, hsuccess, _⟩ := hlawful
    rw [ha, Option.any_some, hsuccess] at hrow
    cases hrow
  · have hdeletions : (worldAfter overtaken).deletions.any (fun deletion =>
        decide (deletion.jobs ≠ ∅)) = true := by decide +kernel
    obtain ⟨deletion, hmem, hjobs⟩ := List.any_eq_true.1 hdeletions
    exact ⟨deletion, hmem, of_decide_eq_true hjobs⟩

end moaworks.mail_external
