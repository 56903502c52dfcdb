-- The laws of the imports over whole runs: a message is deleted on the server only when its mail
-- is stored, no message is imported twice, and a deletion is recorded only after a QUIT that
-- succeeded.
import MoaWorks.ExternalAccountLaws
import MoaWorks.ExternalSteps

namespace moaworks.mail_external

variable {is_ip : String → Bool}

/-- The account stays with its mailbox. -/
def Event.Settled : Event → Prop
  | .moved _ _ => False
  | _ => True

instance : DecidablePred Event.Settled
  | .moved _ _ => .isFalse id
  | .create_account _ _ _ => .isTrue trivial
  | .update_account _ _ _ _ => .isTrue trivial
  | .test_account _ _ _ => .isTrue trivial
  | .queue_collect _ _ => .isTrue trivial
  | .delete_account _ _ => .isTrue trivial
  | .proceed _ _ _ _ => .isTrue trivial
  | .turn _ _ => .isTrue trivial
  | .deliver _ _ => .isTrue trivial
  | .remove _ _ => .isTrue trivial
  | .cut _ _ => .isTrue trivial

structure World.Inv (w : World) : Prop where
  mailboxes : Mailboxes w.store
  runs : ∀ run, RunInv w.store (w.runs run)

/-- What each step of the service keeps. -/
structure Lawful (w w' : World) : Prop where
  inv : w'.Inv
  grows : Extends w.store w'.store
  marks : KeepsMarks w.store w'.store

/-- A write to the other tables. -/
theorem lawful_setDb {w w' : World} (h : w.Inv) {db : Db} (hsame : Untouched w.store.db db)
    (hstore : w'.store = { w.store with db := db }) (hruns : w'.runs = w.runs) : Lawful w w' := by
  have hgrows : Extends w.store w'.store := by
    rw [hstore]
    exact extends_db w.store hsame.1 hsame.2
  refine ⟨⟨?_, fun run => ?_⟩, hgrows, ?_⟩
  · rw [hstore]
    exact h.mailboxes.setDb hsame.1 hsame.2
  · rw [hruns]
    exact (h.runs run).extends hgrows
  · rw [hstore]
    exact .same_drops rfl

theorem lawful_same {w w' : World} (h : w.Inv) (hstore : w'.store = w.store)
    (hruns : w'.runs = w.runs) : Lawful w w' :=
  lawful_setDb h ⟨rfl, rfl⟩ hstore hruns

/-- What the servers and the other clients do to a mailbox. -/
theorem lawful_setDrop {w : World} (h : w.Inv) (account_id : String) {d : Maildrop String}
    (he : (w.store.drops account_id).Evolves d) (hm : (w.store.drops account_id).MarksFrom d) :
    Lawful w (w.setDrop account_id d) where
  inv := ⟨h.mailboxes.marksFrom account_id he hm,
    fun run => (h.runs run).extends (extends_setDrop w.store account_id he)⟩
  grows := extends_setDrop w.store account_id he
  marks := .inl (marksFrom_setDrop w.store account_id hm)

theorem lawful_proceed {w w' : World} (h : w.Inv) {i : Nat} {passes : Bool} {job_id : String}
    {now : Time} (hstep : proceed is_ip w i passes job_id now = some w') : Lawful w w' := by
  unfold proceed at hstep
  cases hrequest : w.requests[i]? with
  | none =>
    rw [hrequest] at hstep
    cases hstep
  | some request =>
    rw [hrequest] at hstep
    cases request with
    | testing account_id actor started =>
      dsimp only at hstep
      split at hstep
      · cases hstep
        exact lawful_same h rfl rfl
      · cases hstep
        exact lawful_same h rfl rfl
    | tested account_id actor started read host passed =>
      dsimp only at hstep
      have hsame : Untouched w.store.db (record_test account_id actor passed started w.store.db) :=
        ⟨rfl, rfl⟩
      split_ifs at hstep
      · cases hstep
        exact lawful_setDb h hsame rfl rfl
      · cases hstep
        exact lawful_setDb h hsame rfl rfl
    | queueing account_id actor =>
      dsimp only at hstep
      split at hstep
      · cases hstep
        exact lawful_same h rfl rfl
      · cases hstep
        exact lawful_setDb h (untouched_insert_job (by assumption)) rfl rfl
    | deleting account_id actor =>
      dsimp only at hstep
      split at hstep
      · cases hstep
        exact lawful_same h rfl rfl
      · rename_i db hdb
        obtain ⟨a, _, heq⟩ := mark_deleted_ok hdb
        have hsame : Untouched w.store.db db := by
          rw [heq]
          exact ⟨rfl, rfl⟩
        cases hstep
        exact lawful_setDb h hsame rfl rfl

theorem lawful_step {w w' : World} (h : w.Inv) {event : Event} (hsettled : event.Settled)
    (hstep : (machine is_ip).step w event = some w') : Lawful w w' := by
  cases event with
  | create_account account_id actor payload =>
    dsimp only [machine, step] at hstep
    obtain ⟨db, hdb, rfl⟩ := Option.map_eq_some_iff.1 hstep
    obtain ⟨a, heq, _⟩ := create_account_ok (Raise.ok_of_toOption hdb)
    have hsame : Untouched w.store.db db := by
      rw [heq]
      exact ⟨rfl, rfl⟩
    exact lawful_setDb h hsame rfl rfl
  | update_account account_id actor payload expectedVersion =>
    dsimp only [machine, step] at hstep
    obtain ⟨db, hdb, rfl⟩ := Option.map_eq_some_iff.1 hstep
    obtain ⟨_, _, _, heq, _⟩ := update_account_ok (Raise.ok_of_toOption hdb)
    have hsame : Untouched w.store.db db := by
      rw [heq]
      exact ⟨rfl, rfl⟩
    exact lawful_setDb h hsame rfl rfl
  | test_account account_id actor now =>
    dsimp only [machine, step] at hstep
    obtain ⟨db, hdb, rfl⟩ := Option.map_eq_some_iff.1 hstep
    obtain ⟨_, _, heq⟩ := reserve_test_attempt_ok (Raise.ok_of_toOption hdb)
    have hsame : Untouched w.store.db db := by
      rw [heq]
      exact ⟨rfl, rfl⟩
    exact lawful_setDb h hsame rfl rfl
  | queue_collect account_id actor =>
    dsimp only [machine, step] at hstep
    split at hstep
    · cases hstep
    · split_ifs at hstep
      cases hstep
      exact lawful_same h rfl rfl
  | delete_account account_id actor =>
    dsimp only [machine, step] at hstep
    split_ifs at hstep
    cases hstep
    exact lawful_same h rfl rfl
  | proceed i passes job_id now => exact lawful_proceed h hstep
  | turn run act =>
    dsimp only [machine, step] at hstep
    obtain ⟨⟨phase, store⟩, hturn, rfl⟩ := Option.map_eq_some_iff.1 hstep
    have hsound := sound_turn h.mailboxes (h.runs run) hturn
    refine ⟨⟨hsound.mailboxes, fun k => ?_⟩, hsound.grows, keepsMarks_turn hturn⟩
    change RunInv store (if k = run then phase else w.runs k)
    split_ifs
    · exact hsound.run
    · exact (h.runs k).extends hsound.grows
  | deliver account_id uidl =>
    dsimp only [machine, step] at hstep
    split_ifs at hstep
    cases hstep
    exact lawful_setDrop h account_id (Maildrop.evolves_of_eq rfl) (Maildrop.marksFrom_of_eq rfl)
  | remove account_id uidl =>
    cases hstep
    exact lawful_setDrop h account_id (Maildrop.evolves_of_eq rfl) (Maildrop.marksFrom_of_eq rfl)
  | cut account_id session =>
    cases hstep
    exact lawful_setDrop h account_id (Maildrop.evolves_cut _ session)
      (Maildrop.marksFrom_cut _ session)
  | moved account_id drop => exact hsettled.elim

theorem inv_of_reach {w : World}
    (h : (machine is_ip).Reach (fun _ event => event.Settled) w) : w.Inv := by
  refine h.invariant (fun w hw => ?_)
    (fun w event w' _ hinv hsettled hstep => (lawful_step hinv hsettled hstep).inv)
  obtain ⟨_, _, himports, hmessages, hdrops, hruns, _⟩ := hw
  refine ⟨⟨fun id session hsession => ?_, fun id session hsession => ?_, fun id u row hrow => ?_,
    fun k row hrow => ?_, fun id m hm => ?_⟩, fun run => ?_⟩
  · rw [hdrops] at hsession
    exact absurd hsession List.not_mem_nil
  · rw [hdrops] at hsession
    exact absurd hsession List.not_mem_nil
  · rw [himports] at hrow
    cases hrow
  · rw [himports] at hrow
    cases hrow
  · rw [hmessages] at hm
    cases hm
  · rw [hruns]
    trivial

/-- A mark that a step leaves is on a message that was stored before the step. -/
theorem marked_stored {w w' : World} (h : w.Inv) (hl : Lawful w w') {account_id u : String}
    {session : Maildrop.Session String} (hsession : session ∈ (w'.store.drops account_id).sessions)
    (hu : u ∈ session.marked) : Stored w.store.db account_id u := by
  rcases hl.marks with hmarks | hdb
  · obtain ⟨before, hbefore, _, hmarked⟩ := hmarks account_id session hsession
    exact h.mailboxes.marked account_id before hbefore u (hmarked ▸ hu)
  · rw [← hdb]
    exact hl.inv.mailboxes.marked account_id session hsession u hu

/-- In each run, whatever the servers answer, the libraries raise and the other runs do: a message
that a QUIT has deleted was stored before, and with it all marks; each mail stands for one message
of one mailbox, for ever; and what is recorded as deleted was marked in a session whose QUIT
succeeded. -/
theorem collection_deletes_only_what_is_stored {w : World}
    (h : (machine is_ip).Reach (fun _ event => event.Settled) w) :
    (∀ event w', event.Settled → (machine is_ip).step w event = some w' →
      (∀ account_id u, (w'.store.drops account_id).Deleted u → Stored w.store.db account_id u) ∧
      (∀ k row, w.store.db.imports.rows k = some row →
        ∃ row', w'.store.db.imports.rows k = some row' ∧ row'.message_id = row.message_id) ∧
      ∀ id m, w.store.db.messages.rows id = some m → w'.store.db.messages.rows id = some m) ∧
    (∀ id m, w.store.db.messages.rows id = some m → ∃ k row, w.store.db.imports.rows k = some row ∧
      row.message_id = id ∧ k.1 = m.source_external_account_id ∧
      ∀ k' row', w.store.db.imports.rows k' = some row' → row'.message_id = id → k' = k) ∧
    ∀ account_id u row, w.store.db.imports.rows (account_id, u) = some row →
      row.remote_delete_status = .deleted → (w.store.drops account_id).Confirmed u := by
  have hinv := inv_of_reach h
  refine ⟨fun event w' hsettled hstep => ?_, fun id m hm => ?_, hinv.mailboxes.deleted⟩
  · have hlawful := lawful_step hinv hsettled hstep
    refine ⟨fun account_id u hdeleted => ?_, hlawful.grows.imports, hlawful.grows.messages⟩
    obtain ⟨session, hsession, _, hu⟩ := hdeleted
    exact marked_stored hinv hlawful hsession hu
  · obtain ⟨k, row, hrow, hid, honly⟩ := hinv.mailboxes.single id m hm
    obtain ⟨m', hm', hsource⟩ := hinv.mailboxes.imported k row hrow
    rw [hid, hm] at hm'
    cases hm'
    exact ⟨k, row, hrow, hid, hsource.symm, honly⟩

/-! ## A collection -/

def ana : AuthUserSummary := ⟨"ana", "acme"⟩

def anasDb : Db where
  users := Table.empty.set "ana" ⟨"ana@acme.com", "Ana"⟩
  mail_accounts := Table.empty.set "ana" "account"
  folders := .empty
  accounts := .empty
  jobs := .empty
  imports := .empty
  messages := .empty

def anasWorld : World := ⟨⟨anasDb, fun _ => ⟨[], []⟩⟩, fun _ => .idle, [], [], [], []⟩

def popAccount : AccountPayload :=
  ⟨"Old mail", "pop.example.com", 995, .ssl, "ana", some "secret", none, true, false⟩

def letter : Mime := ⟨100, "Hello", "bea@example.com", "Bea", "Hello Ana", "", []⟩

/-- The account is created and tested, and a collection asked for. -/
def queued : List Event :=
  [.create_account "pop" ana popAccount, .test_account "pop" ana 0, .proceed 0 true "" 0,
    .proceed 0 true "" 1, .queue_collect "pop" ana, .proceed 0 true "job" 2]

def claimed : List Event :=
  queued ++ [.turn 0 (.select_due 3), .turn 0 (.enqueue 3 []), .turn 0 (.claim 4 [])]

def collected : List Event :=
  [.deliver "pop" "uidl"] ++ claimed ++ [.turn 0 .read_context,
    .turn 0 (.open_connection (some [("uidl", 1)])), .turn 0 (.heartbeat 5 none), .turn 0 .look,
    .turn 0 (.store 100 100 letter "mail" 6 none), .turn 0 (.dele true),
    .turn 0 (.heartbeat 7 none), .turn 0 (.quit (some true)), .turn 0 (.record_states 8),
    .turn 0 (.finalize 9)]

def worldAfter (events : List Event) : World :=
  ((machine (fun _ => false)).run anasWorld events).getD anasWorld

theorem reach_worldAfter (events : List Event) (hsettled : ∀ event ∈ events, event.Settled)
    (h : ((machine (fun _ => false)).run anasWorld events).isSome = true) :
    (machine (fun _ => false)).Reach (fun _ event => event.Settled) (worldAfter events) := by
  obtain ⟨w, hw⟩ := Option.isSome_iff_exists.1 h
  unfold worldAfter
  rw [hw]
  have hstart : (machine (fun _ => false)).Start anasWorld :=
    ⟨rfl, rfl, rfl, rfl, fun _ => rfl, fun _ => rfl, rfl, rfl, rfl, rfl⟩
  exact Machine.Reach.run (.start hstart) (fun event hevent _ => hsettled event hevent) hw

/-- The message is gone from the server, and its mail and its import are there. -/
theorem the_message_is_collected :
    "uidl" ∉ ((worldAfter collected).store.drops "pop").messages ∧
    ((worldAfter collected).store.drops "pop").Confirmed "uidl" ∧
    ((worldAfter collected).store.db.messages.rows "mail").isSome = true := by
  refine ⟨by decide +kernel, ?_, by decide +kernel⟩
  obtain ⟨_, _, hdeleted⟩ := collection_deletes_only_what_is_stored
    (reach_worldAfter collected (by decide) (by decide +kernel))
  have hrow : ((worldAfter collected).store.db.imports.rows ("pop", "uidl")).any
      (fun row => decide (row.remote_delete_status = .deleted)) = true := by decide +kernel
  obtain ⟨row, hrow, hstatus⟩ := (Option.any_eq_true _ _).1 hrow
  exact hdeleted "pop" "uidl" row hrow (of_decide_eq_true hstatus)

end moaworks.mail_external
