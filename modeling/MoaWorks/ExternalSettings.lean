-- The settings that the collection of external mail runs with: when they are the tested ones, and
-- when an account is deleted without a job of it.
import MoaWorks.ExternalAccountLaws
import MoaWorks.ExternalSteps

namespace moaworks.mail_external

variable {is_ip : String → Bool}

/-! ## The law -/

/-- The connection of the last successful test of an account. -/
def lastTest (tests : List (String × Connection)) (account_id : String) : Option Connection :=
  (tests.filter (fun t => decide (t.1 = account_id))).getLast?.map Prod.snd

def Tested (w : World) : Prop :=
  ∀ id a, w.store.db.accounts.rows id = some a → a.connection_status = .success →
    lastTest w.tests id = some a.connection

/-- A connection for an account that is there and tested, with its settings. -/
def Connect.Lawful (connect : Connect) : Prop :=
  ∃ a, connect.row = some a ∧ a.deleted_at = none ∧ a.connection_status = .success ∧
    a.connection = connect.connection

/-- Only tested settings are used, and no account goes while a job of it is active. -/
structure UsesTested (w : World) : Prop where
  tested : Tested w
  connects : ∀ connect ∈ w.connects, connect.Lawful
  deletions : ∀ deletion ∈ w.deletions, deletion.jobs = ∅

/-! ## When the law holds -/

/-- No request stands between its look at the jobs of the account and the deletion of it. -/
def NotDeleting (w : World) (account_id : String) : Prop :=
  ∀ actor, .deleting account_id actor ∉ w.requests

/-- A test that passes is recorded for the settings that it read; a run reads a tested account, and
connects while the account is as it read it; and no job comes in the middle of a deletion. -/
def Meets (w : World) : Event → Prop
  | .proceed i _ _ _ => match w.requests[i]? with
    | some (.tested account_id _ _ read _ true) =>
      ∀ a, w.store.db.accounts.rows account_id = some a → a.connection = read
    | some (.queueing account_id _) => NotDeleting w account_id
    | _ => True
  | .turn run (.enqueue _ _) => match w.runs run with
    | .enqueuing due => ∀ account ∈ due, NotDeleting w account.1
    | _ => True
  | .turn run .read_context => match w.runs run with
    | .claimed job => ∀ context, _context job w.store.db = some context →
      context.account.connection_status = .success
    | _ => True
  | .turn run (.open_connection _) => match w.runs run with
    | .collecting c => ∃ a, w.store.db.accounts.rows c.context.account_id = some a ∧
      a.connection = c.context.account.connection ∧
      a.connection_status = c.context.account.connection_status ∧
      a.deleted_at = c.context.account.deleted_at
    | _ => True
  | _ => True

/-! ## Jobs -/

theorem activeJobs_eq_empty {db : Db} {account_id : String} :
    activeJobs db account_id = ∅ ↔ ∀ k job, db.jobs.rows k = some job →
      job.account_id = account_id → job.status.active = false := by
  unfold activeJobs
  constructor
  · intro h k job hjob haccount
    by_contra hactive
    have hmem : k ∈ db.jobs.select (fun _ job => decide (job.account_id = account_id) &&
        job.status.active) := by
      rw [Table.mem_select]
      exact ⟨job, hjob, by simpa [haccount] using hactive⟩
    rw [h] at hmem
    exact absurd hmem (Finset.notMem_empty k)
  · intro h
    refine Finset.eq_empty_of_forall_notMem (fun k hk => ?_)
    obtain ⟨job, hjob, hactive⟩ := (Table.mem_select _ _ _).1 hk
    simp only [Bool.and_eq_true, decide_eq_true_eq] at hactive
    rw [h k job hjob hactive.1] at hactive
    exact Bool.false_ne_true hactive.2

/-- A write that starts no job and changes no settings. -/
structure Keeps (db db' : Db) : Prop where
  accounts : ∀ id a', db'.accounts.rows id = some a' → ∃ a, db.accounts.rows id = some a ∧
    a'.connection = a.connection ∧ a'.connection_status = a.connection_status
  jobs : ∀ k job', db'.jobs.rows k = some job' → job'.status.active = true →
    ∃ job, db.jobs.rows k = some job ∧ job.account_id = job'.account_id ∧
      job.status.active = true

theorem Keeps.refl (db : Db) : Keeps db db :=
  ⟨fun _ a h => ⟨a, h, rfl, rfl⟩, fun _ job h hactive => ⟨job, h, rfl, hactive⟩⟩

theorem Keeps.of_eq {db db' : Db} (haccounts : db'.accounts = db.accounts)
    (hjobs : db'.jobs = db.jobs) : Keeps db db' := by
  refine ⟨?_, ?_⟩
  · rw [haccounts]
    exact (Keeps.refl db).accounts
  · rw [hjobs]
    exact (Keeps.refl db).jobs

theorem Keeps.activeJobs {db db' : Db} (h : Keeps db db') {account_id : String}
    (hempty : activeJobs db account_id = ∅) : activeJobs db' account_id = ∅ := by
  rw [activeJobs_eq_empty] at hempty ⊢
  intro k job' hjob' haccount
  by_contra hactive
  obtain ⟨job, hjob, haccount', hactive'⟩ := h.jobs k job' hjob' (Bool.eq_true_of_not_eq_false hactive)
  rw [hempty k job hjob (haccount'.trans haccount)] at hactive'
  exact Bool.false_ne_true hactive'

/-- A write to one active job. -/
theorem keeps_setJob {db : Db} {id : String} {row row' : CollectionJob}
    (hrow : db.jobs.rows id = some row) (hactive : row.status.active = true)
    (haccount : row.account_id = row'.account_id) : Keeps db (db.setJob id row') := by
  refine ⟨(Keeps.refl db).accounts, fun k job' hjob' hactive' => ?_⟩
  unfold Db.setJob at hjob'
  rw [Table.rows_set] at hjob'
  split_ifs at hjob' with hk
  · cases hjob'
    exact ⟨row, hk ▸ hrow, haccount, hactive⟩
  · exact ⟨job', hjob', rfl, hactive'⟩

theorem leasedJob_eq_some {db : Db} {id : String} {row : CollectionJob}
    (h : leasedJob db id = some row) : db.jobs.rows id = some row ∧ row.status.active = true := by
  unfold leasedJob at h
  obtain ⟨hrow, hleased⟩ := Option.filter_eq_some_iff.1 h
  simp only [Bool.and_eq_true, decide_eq_true_eq] at hleased
  rw [hleased.1]
  exact ⟨hrow, rfl⟩

theorem keeps_heartbeat (id : String) (now : Time) (db : Db) :
    Keeps db (_heartbeat id now db).2 := by
  unfold _heartbeat
  cases hrow : leasedJob db id with
  | none => exact .refl db
  | some row =>
    obtain ⟨hjob, hactive⟩ := leasedJob_eq_some hrow
    exact keeps_setJob hjob hactive rfl

theorem keeps_retry_later (job : ClaimedJob) (now : Time) (db : Db) :
    Keeps db (retry_later job now db) := by
  unfold retry_later
  cases hrow : leasedJob db job.id with
  | none => exact .refl db
  | some row =>
    obtain ⟨hjob, hactive⟩ := leasedJob_eq_some hrow
    exact keeps_setJob hjob hactive rfl

theorem keeps_finalize (job : ClaimedJob) (status : JobStatus) (counts : Counts)
    (code : Option String) (now : Time) (db : Db) :
    Keeps db (_finalize job status counts code now db).2 := by
  unfold _finalize
  cases hrow : leasedJob db job.id with
  | none => exact .refl db
  | some row =>
    obtain ⟨hjob, hactive⟩ := leasedJob_eq_some hrow
    refine ⟨fun id a' ha' => ?_, fun k job' hjob' => ?_⟩
    swap
    · refine (keeps_setJob hjob hactive ?_).jobs k job' hjob'
      rfl
    dsimp only at ha'
    rw [Table.rows_update] at ha'
    obtain ⟨a, ha, rfl⟩ := Option.map_eq_some_iff.1 ha'
    refine ⟨a, ha, ?_⟩
    split_ifs
    · exact ⟨rfl, rfl⟩
    · exact ⟨rfl, rfl⟩

theorem keeps_claim (now : Time) (locked : List String) (db : Db) :
    Keeps db (_claim now locked db).2 := by
  unfold _claim
  split
  · exact .refl db
  · rename_i id job hfind
    have hpicked := List.find?_some hfind
    simp only [Bool.and_eq_true, decide_eq_true_eq] at hpicked
    have hrow := Table.mem_orderedBy.1 (List.mem_of_find?_eq_some hfind)
    refine keeps_setJob hrow ?_ rfl
    rw [hpicked.1.1]
    rfl

/-- The jobs that `_enqueue_scheduled` starts are those of the accounts it was given. -/
theorem enqueue_jobs (now : Time) (due : List (String × Account)) (ids : List String) {db : Db}
    {account_id : String} (hdue : ∀ account ∈ due, account.1 ≠ account_id)
    (hempty : activeJobs db account_id = ∅) :
    activeJobs (_enqueue_scheduled now due ids db) account_id = ∅ := by
  have hloop : ∀ (l : List (String × String × Account)) (db : Db),
      (∀ entry ∈ l, entry.2.1 ≠ account_id) → activeJobs db account_id = ∅ →
      activeJobs (l.foldl (enqueue_one now) db) account_id = ∅ := by
    intro l
    induction l with
    | nil => exact fun _ _ h => h
    | cons entry l ih =>
      intro db hl h
      refine ih _ (fun e he => hl e (List.mem_cons_of_mem entry he)) ?_
      unfold enqueue_one
      cases hinsert : insert_job entry.1
          (queuedJob entry.2.1 entry.2.2.company_id entry.2.2.user_id .scheduled now) db with
      | none => exact h
      | some db' =>
        rw [insert_job_eq_some hinsert, Option.getD_some, activeJobs_eq_empty]
        intro k job hjob haccount
        unfold Db.setJob at hjob
        rw [Table.rows_set] at hjob
        split_ifs at hjob with hk
        · cases hjob
          exact absurd haccount (hl entry List.mem_cons_self)
        · exact activeJobs_eq_empty.1 h k job hjob haccount
  refine hloop _ _ (fun entry hentry => ?_) ?_
  · exact hdue entry.2 (List.of_mem_zip hentry).2
  · rw [activeJobs_eq_empty] at hempty ⊢
    intro k job' hjob' haccount
    dsimp only at hjob'
    rw [Table.rows_update] at hjob'
    obtain ⟨job, hjob, rfl⟩ := Option.map_eq_some_iff.1 hjob'
    split_ifs at haccount ⊢ with hexpired
    · -- A job whose lease has run out was running.
      unfold leaseExpired at hexpired
      simp only [Bool.and_eq_true, decide_eq_true_eq] at hexpired
      have hsame : (takeBack now job).account_id = job.account_id := by
        unfold takeBack
        split_ifs
        · rfl
        · rfl
      have hactive := hempty k job hjob (hsame ▸ haccount)
      rw [hexpired.1] at hactive
      cases hactive
    · exact hempty k job hjob haccount

theorem enqueue_accounts (now : Time) (due : List (String × Account)) (ids : List String)
    (db : Db) : (_enqueue_scheduled now due ids db).accounts = db.accounts := by
  have hloop : ∀ (l : List (String × String × Account)) (db : Db),
      (l.foldl (enqueue_one now) db).accounts = db.accounts := by
    intro l
    induction l with
    | nil => exact fun _ => rfl
    | cons entry l ih =>
      intro db
      refine (ih _).trans ?_
      unfold enqueue_one
      cases hinsert : insert_job entry.1
          (queuedJob entry.2.1 entry.2.2.company_id entry.2.2.user_id .scheduled now) db with
      | none => rfl
      | some db' =>
        rw [insert_job_eq_some hinsert]
        rfl
  exact hloop _ _

/-! ## The account of a run -/

def Phase.context : Phase → Option Context
  | .collecting c => some c.context
  | _ => none

/-- A step of a run that stays with its account, starts no job and changes no settings. -/
structure Stays (c : Collecting) (s : Store) (phase' : Phase) (s' : Store) : Prop where
  context : ∀ context, phase'.context = some context → context = c.context
  keeps : Keeps s.db s'.db

theorem stays_of_eq {c : Collecting} {s s' : Store} {phase' : Phase}
    (hcontext : phase'.context = some c.context ∨ phase'.context = none)
    (haccounts : s'.db.accounts = s.db.accounts) (hjobs : s'.db.jobs = s.db.jobs) :
    Stays c s phase' s' := by
  refine ⟨fun context h => ?_, .of_eq haccounts hjobs⟩
  rcases hcontext with heq | heq
  · exact Option.some.inj (h.symm.trans heq)
  · rw [heq] at h
    cases h

theorem stays_generic (c : Collecting) (sees : Option Bool) (s : Store) :
    Stays c s (generic c sees s).1 (generic c sees s).2 := by
  unfold generic
  refine stays_of_eq (.inr rfl) ?_ ?_
  · rw [leave_db]
  · rw [leave_db]

theorem handle_context (c : Collecting) (uidl : String) (action : Action) (error : ItemError)
    (s : Store) : (handle c uidl action error s).1.context = some c.context := by
  cases error with
  | protocol => rfl
  | other => rfl

theorem stays_handle (c : Collecting) (uidl : String) (action : Action) (error : ItemError)
    (s : Store) : Stays c s (handle c uidl action error s).1 (handle c uidl action error s).2 :=
  stays_of_eq (.inl (handle_context c uidl action error s)) (by rw [handle_db]) (by rw [handle_db])

theorem opened_context (c : Collecting) (i : Nat) (listing : List (String × Nat)) :
    (opened c i listing).context = c.context := by
  unfold opened
  split
  · rfl
  · rfl

theorem stays_open_connection {c : Collecting} {listing : Option (List (String × Nat))}
    {s s' : Store} {phase' : Phase} (h : open_connection c listing s = some (phase', s')) :
    Stays c s phase' s' := by
  have hdb := open_connection_db h
  refine stays_of_eq ?_ (by rw [hdb]) (by rw [hdb])
  cases listing with
  | none =>
    unfold open_connection at h
    dsimp only at h
    split at h
    · cases h
      exact .inr rfl
    · obtain ⟨hphase, _⟩ := Prod.mk.inj (Option.some.inj h)
      rw [← hphase]
      exact .inl (handle_context c _ _ .protocol s)
    · cases h
  | some numbering =>
    obtain ⟨d, _, hpair⟩ := Option.map_eq_some_iff.1 h
    cases hpair
    exact .inl (congrArg some (opened_context c _ numbering))

theorem stays_delete_marked {c after : Collecting} (hafter : after.context = c.context)
    {uidl : String} {action : Action} {answered : Bool} {s s' : Store} {phase' : Phase}
    (h : delete_marked c uidl action after answered s = some (phase', s')) :
    Stays c s phase' s' := by
  have hdb := delete_marked_db h
  refine stays_of_eq ?_ (by rw [hdb]) (by rw [hdb])
  unfold delete_marked at h
  split at h
  · obtain ⟨d, _, hpair⟩ := Option.map_eq_some_iff.1 h
    dsimp only at hpair
    split_ifs at hpair
    · cases hpair
      exact .inl (congrArg some hafter)
    · obtain ⟨hphase, _⟩ := Prod.mk.inj hpair
      rw [← hphase]
      exact .inl (handle_context c uidl action .protocol (s.setDrop c.context.account_id d))
  · cases h

theorem stays_import_item (c : Collecting) (uidl : String) (size octets : Nat) (raw : Mime)
    (message_id : String) (now : Time) (marked : Option ItemError) (s : Store) :
    Stays c s (import_item c uidl size octets raw message_id now marked s).1
      (import_item c uidl size octets raw message_id now marked s).2 := by
  unfold import_item
  by_cases hsize : size ≤ raw_limit ∧ octets ≤ raw_limit
  · rw [if_pos hsize]
    cases parse_external_message raw with
    | none => exact stays_handle c uidl .import_ .other s
    | some parsed =>
      dsimp only
      rcases hstore : _store c.context uidl parsed message_id now s.db with ⟨_ | _, db⟩
      · rw [store_false hstore]
        exact stays_of_eq (.inl rfl) rfl rfl
      · have hdb : db.accounts = s.db.accounts ∧ db.jobs = s.db.jobs := by
          unfold _store at hstore
          split at hstore
          · cases hstore
          · cases hstore
            exact ⟨rfl, rfl⟩
        cases marked with
        | some error =>
          refine stays_of_eq (.inl (handle_context c uidl .import_ error _)) ?_ ?_
          · rw [handle_db]
            exact hdb.1
          · rw [handle_db]
            exact hdb.2
        | none => exact stays_of_eq (.inl rfl) hdb.1 hdb.2
  · rw [if_neg hsize]
    exact stays_handle c uidl .import_ .other s

theorem stays_collect {s s' : Store} {c : Collecting} {act : Act} {phase' : Phase}
    (hstep : collect act c s = some (phase', s')) : Stays c s phase' s' := by
  have hpair : ∀ {pair : Phase × Store}, Stays c s pair.1 pair.2 →
      some pair = some (phase', s') → Stays c s phase' s' := by
    intro pair hstays heq
    rw [Option.some.inj heq] at hstays
    exact hstays
  cases act with
  | open_connection listing =>
    dsimp only [collect] at hstep
    split at hstep
    · exact stays_open_connection hstep
    · split_ifs at hstep
      exact stays_open_connection hstep
    · cases hstep
  | heartbeat now sees =>
    dsimp only [collect] at hstep
    split_ifs at hstep
    have hkeeps := keeps_heartbeat c.job.id now s.db
    split at hstep
    · cases hstep
      exact stays_of_eq (.inr rfl) (by rw [leave_db]) (by rw [leave_db])
    · rename_i db hbeat
      rw [hbeat] at hkeeps
      split at hstep
      · cases hstep
        exact ⟨fun context h => (Option.some.inj h).symm, hkeeps⟩
      · cases hstep
        exact ⟨fun context h => (Option.some.inj h).symm, hkeeps⟩
  | look =>
    dsimp only [collect] at hstep
    split at hstep
    · split_ifs at hstep
      · cases hstep
        exact stays_of_eq (.inl rfl) rfl rfl
      · cases hstep
        exact stays_of_eq (.inl rfl) rfl rfl
    · cases hstep
  | disappear =>
    dsimp only [collect] at hstep
    split at hstep
    · split_ifs at hstep
      cases hstep
      exact stays_of_eq (.inl rfl) rfl rfl
    · cases hstep
  | dele answered =>
    dsimp only [collect] at hstep
    split at hstep
    · exact stays_delete_marked (by rfl) hstep
    · exact stays_delete_marked (by rfl) hstep
    · cases hstep
  | store size octets raw message_id now marked =>
    dsimp only [collect] at hstep
    split at hstep
    · split_ifs at hstep
      exact hpair (stays_import_item c _ size octets raw message_id now marked s) hstep
    · cases hstep
  | raised error sees =>
    dsimp only [collect] at hstep
    split at hstep
    · exact hpair (stays_generic c sees s) hstep
    · exact hpair (stays_generic c sees s) hstep
    · exact hpair (stays_handle c _ _ error s) hstep
    · exact hpair (stays_handle c _ _ error s) hstep
    · exact hpair (stays_handle c _ _ error s) hstep
    · exact hpair (stays_generic c sees s) hstep
    · cases hstep
  | set_states now =>
    dsimp only [collect] at hstep
    split at hstep
    · cases hstep
      refine stays_of_eq (.inl rfl) ?_ ?_
      · dsimp only
        split_ifs
        · rfl
        · rfl
      · dsimp only
        split_ifs
        · rfl
        · rfl
    · cases hstep
      exact stays_of_eq (.inl rfl) rfl rfl
    · cases hstep
  | quit sees =>
    dsimp only [collect] at hstep
    split_ifs at hstep
    cases hstep
    exact stays_of_eq (.inr rfl) (by rw [leave_db]) (by rw [leave_db])
  | _ => cases hstep

/-- A step of a run starts no job and changes no settings, but for `_enqueue_scheduled`. -/
theorem keeps_turn {s s' : Store} {act : Act} {phase phase' : Phase}
    (hstep : turn act phase s = some (phase', s'))
    (hact : ∀ due now ids, phase = .enqueuing due → act ≠ .enqueue now ids) :
    Keeps s.db s'.db := by
  cases phase with
  | idle => cases act with
    | select_due now =>
      cases hstep
      exact .refl _
    | _ => cases hstep
  | enqueuing due => cases act with
    | enqueue now ids => exact absurd rfl (hact due now ids rfl)
    | _ => cases hstep
  | enqueued => cases act with
    | claim now locked =>
      have hkeeps := keeps_claim now locked s.db
      dsimp only [turn] at hstep
      rcases hclaim : _claim now locked s.db with ⟨_ | job, db⟩
      · rw [hclaim] at hstep hkeeps
        cases hstep
        exact hkeeps
      · rw [hclaim] at hstep hkeeps
        cases hstep
        exact hkeeps
    | _ => cases hstep
  | claimed job => cases act with
    | read_context =>
      dsimp only [turn] at hstep
      split at hstep
      · cases hstep
        exact .refl _
      · cases hstep
        exact .refl _
    | raised error sees =>
      cases hstep
      exact .refl _
    | _ => cases hstep
  | collecting c => exact (stays_collect ((turn_collecting act c s).symm.trans hstep)).keeps
  | recording c quit_ok => cases act with
    | record_states now =>
      cases hstep
      refine .of_eq ?_ ?_
      · dsimp only
        split_ifs
        · rfl
        · rfl
        · rfl
      · dsimp only
        split_ifs
        · rfl
        · rfl
        · rfl
    | raised error sees =>
      cases hstep
      exact .refl _
    | _ => cases hstep
  | finalizing job counts => cases act with
    | finalize now =>
      cases hstep
      exact keeps_finalize _ _ _ _ _ _
    | raised error sees =>
      cases hstep
      exact .refl _
    | _ => cases hstep
  | failing job counts => cases act with
    | fail now =>
      cases hstep
      dsimp only
      split_ifs
      · exact keeps_retry_later job now s.db
      · exact keeps_finalize _ _ _ _ _ _
    | _ => cases hstep

/-- A run collects the account that it was collecting, or the one that it has just read. -/
theorem turn_context {s s' : Store} {act : Act} {phase phase' : Phase}
    (hstep : turn act phase s = some (phase', s')) {context : Context}
    (h : phase'.context = some context) : phase.context = some context ∨
      ∃ job, phase = .claimed job ∧ act = .read_context ∧ _context job s.db = some context := by
  cases phase with
  | collecting c =>
    have hstays := stays_collect ((turn_collecting act c s).symm.trans hstep)
    rw [hstays.context context h]
    exact .inl rfl
  | claimed job => cases act with
    | read_context =>
      dsimp only [turn] at hstep
      split at hstep
      · cases hstep
        cases h
      · rename_i found hfound
        cases hstep
        cases h
        exact .inr ⟨job, rfl, rfl, hfound⟩
    | raised error sees =>
      cases hstep
      cases h
    | _ => cases hstep
  | enqueued => cases act with
    | claim now locked =>
      dsimp only [turn] at hstep
      split at hstep
      · cases hstep
        cases h
      · cases hstep
        cases h
    | _ => cases hstep
  | _ => cases act with
    | select_due now =>
      cases hstep
      all_goals cases h
    | enqueue now ids =>
      cases hstep
      all_goals cases h
    | record_states now =>
      cases hstep
      all_goals cases h
    | finalize now =>
      cases hstep
      all_goals cases h
    | fail now =>
      cases hstep
      all_goals cases h
    | raised error sees =>
      cases hstep
      all_goals cases h
    | _ => cases hstep

end moaworks.mail_external
