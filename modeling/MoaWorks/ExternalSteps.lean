-- The steps of a run of the collection: what it knows of its session, and that each step keeps to
-- the laws of the imports and of the mailboxes.
import MoaWorks.ExternalImports

namespace moaworks.mail_external

variable {s s' : Store} {c : Collecting} {phase' : Phase} {act : Act}

/-! ## The invariant of a run -/

/-- What a run knows of its session, and of the message that it is about to mark. -/
structure Follows (s : Store) (c : Collecting) : Prop where
  session : ∀ i, c.client = some i → ∃ session : Maildrop.Session String,
    (s.drops c.context.account_id).sessions[i]? = some session ∧
      session.numbering = c.numbers ∧ ∀ u ∈ c.pending, u ∈ session.marked
  closed : c.client = none → c.pending = []
  opening : c.place = .opening → c.client = none
  place : ∀ uidl, c.place = .stored uidl ∨ c.place = .acting uidl .delete_only →
    Stored s.db c.context.account_id uidl

def RunInv (s : Store) : Phase → Prop
  | .collecting c => Follows s c
  | .recording c quit_ok => quit_ok = true →
    ∀ u ∈ c.pending, (s.drops c.context.account_id).Confirmed u
  | _ => True

theorem Follows.extends (h : Follows s c) (he : Extends s s') : Follows s' c := by
  refine ⟨fun i hi => ?_, h.closed, h.opening, fun uidl huidl => (h.place uidl huidl).extends he⟩
  obtain ⟨session, hsession, hnumbers, hpending⟩ := h.session i hi
  obtain ⟨session', hsession', hnumbering, hmarked, _⟩ := he.drops _ i session hsession
  exact ⟨session', hsession', hnumbering.trans hnumbers, fun u hu => hmarked u (hpending u hu)⟩

theorem RunInv.extends {phase : Phase} (h : RunInv s phase) (he : Extends s s') :
    RunInv s' phase := by
  cases phase with
  | collecting c => exact Follows.extends h he
  | recording c quit_ok => exact fun hok u hu => (h hok u hu).evolves (he.drops _)
  | idle => trivial
  | enqueuing due => trivial
  | enqueued => trivial
  | claimed job => trivial
  | finalizing job counts => trivial
  | failing job counts => trivial

/-- A run goes on over the same session. -/
theorem Follows.go {c' : Collecting} (h : Follows s c) (hcontext : c'.context = c.context)
    (hclient : c'.client = c.client) (hnumbers : c'.numbers = c.numbers)
    (hpending : c'.pending = c.pending) (hopening : c'.place ≠ .opening)
    (hplace : ∀ uidl, c'.place = .stored uidl ∨ c'.place = .acting uidl .delete_only →
      Stored s.db c.context.account_id uidl) : Follows s c' := by
  refine ⟨?_, ?_, fun heq => absurd heq hopening, ?_⟩
  · rw [hclient, hcontext, hnumbers, hpending]
    exact h.session
  · rw [hclient, hpending]
    exact h.closed
  · rw [hcontext]
    exact hplace

/-- A place where the run is past its first connection, and about to mark nothing. -/
def Place.passing : Place → Bool
  | opening => false
  | acting _ .delete_only => false
  | stored _ => false
  | _ => true

theorem not_marking {place : Place} (h : place.passing = true) {uidl : String}
    (hmarking : place = .stored uidl ∨ place = .acting uidl .delete_only) : False := by
  rcases hmarking with rfl | rfl
  · cases h
  · cases h

theorem Follows.pass {c' : Collecting} (h : Follows s c) (hcontext : c'.context = c.context)
    (hclient : c'.client = c.client) (hnumbers : c'.numbers = c.numbers)
    (hpending : c'.pending = c.pending) (hplace : c'.place.passing = true) : Follows s c' := by
  refine h.go hcontext hclient hnumbers hpending (fun heq => ?_)
    (fun uidl hmarking => (not_marking hplace hmarking).elim)
  rw [heq] at hplace
  cases hplace

/-- A step of a run that keeps to the laws. -/
structure Sound (s : Store) (phase' : Phase) (s' : Store) : Prop where
  mailboxes : Mailboxes s'
  run : RunInv s' phase'
  grows : Extends s s'

/-- A step that leaves the tables and the mailboxes as they are. -/
theorem Sound.same (h : Mailboxes s) (hrun : RunInv s phase') : Sound s phase' s := ⟨h, hrun, .refl s⟩

theorem Sound.trans {s'' : Store} (he : Extends s s') (h : Sound s' phase' s'') :
    Sound s phase' s'' := ⟨h.mailboxes, h.run, he.trans h.grows⟩

/-- A step over the tables that leaves the imports and the mails as they are. -/
theorem Sound.setDb (h : Mailboxes s) {db : Db} (himports : db.imports = s.db.imports)
    (hmessages : db.messages = s.db.messages) (hrun : RunInv s phase') :
    Sound s phase' { s with db := db } :=
  ⟨h.setDb himports hmessages, hrun.extends (extends_db s himports hmessages),
    extends_db s himports hmessages⟩

theorem sound_generic (h : Mailboxes s) (c : Collecting) (sees : Option Bool) :
    Sound s (generic c sees s).1 (generic c sees s).2 :=
  ⟨h.leave _ _ _, trivial, extends_leave _ _ _ _⟩

theorem sound_handle (h : Mailboxes s) (hc : Follows s c) (uidl : String) (action : Action)
    (error : ItemError) :
    Sound s (handle c uidl action error s).1 (handle c uidl action error s).2 := by
  cases error with
  | other =>
    exact .same h (Follows.pass hc rfl rfl rfl rfl rfl)
  | protocol =>
    have hrun : Follows (leave s c.context.account_id c.client none)
        ({ c.fail 1 with client := none, pending := [] }.go (.handling uidl action c.pending)) :=
      ⟨fun i hi => absurd hi.symm (Option.some_ne_none i), fun _ => rfl, fun _ => rfl,
        fun _ hmarking => (not_marking rfl hmarking).elim⟩
    exact ⟨h.leave c.context.account_id c.client none, hrun,
      extends_leave s c.context.account_id c.client none⟩

theorem sound_open_connection (h : Mailboxes s) (hc : Follows s c) (hclient : c.client = none)
    {listing : Option (List (String × Nat))}
    (hopen : open_connection c listing s = some (phase', s')) : Sound s phase' s' := by
  cases listing with
  | none =>
    unfold open_connection at hopen
    dsimp only at hopen
    cases hplace : c.place with
    | opening =>
      rw [hplace] at hopen
      cases hopen
      exact sound_generic h c none
    | acting uidl action =>
      rw [hplace] at hopen
      cases hopen
      exact sound_handle h hc uidl action .protocol
    | _ =>
      rw [hplace] at hopen
      cases hopen
  | some numbering =>
    obtain ⟨d, hd, hpair⟩ := Option.map_eq_some_iff.1 hopen
    cases hpair
    have he := extends_setDrop s c.context.account_id (Maildrop.evolves_login hd)
    obtain ⟨hnumbering, rfl⟩ := Maildrop.login_eq_some hd
    have hcontext : ∀ i, (opened c i numbering).context = c.context := by
      intro i
      unfold opened
      cases c.place <;> rfl
    have hclient' : ∀ i, (opened c i numbering).client = some i := by
      intro i
      unfold opened
      cases c.place <;> rfl
    have hnumbers : ∀ i, (opened c i numbering).numbers = numbering := by
      intro i
      unfold opened
      cases c.place <;> rfl
    have hpending : ∀ i, (opened c i numbering).pending = [] := by
      intro i
      unfold opened
      cases c.place <;> exact hc.closed hclient
    have hplace : ∀ i, (opened c i numbering).place ≠ .opening := by
      intro i heq
      unfold opened at heq
      cases hplace : c.place with
      | opening =>
        rw [hplace] at heq
        cases heq
      | _ =>
        rw [hplace] at heq
        cases heq
    refine ⟨h.setDrop _ (Maildrop.evolves_login hd) ?_, ⟨fun i hi => ?_, fun hnone => ?_,
      fun heq => absurd heq (hplace _), fun uidl huidl => ?_⟩, he⟩
    · intro session hsession
      rcases List.mem_append.1 hsession with hsession | hsession
      · exact ⟨h.numbering _ session hsession, h.marked _ session hsession⟩
      · obtain rfl := List.mem_singleton.1 hsession
        exact ⟨hnumbering.2.1, fun u hu => absurd hu List.not_mem_nil⟩
    · rw [hclient'] at hi
      cases hi
      rw [hcontext, hnumbers, hpending]
      refine ⟨⟨numbering, [], none⟩, ?_, rfl, fun u hu => absurd hu List.not_mem_nil⟩
      simp [Store.setDrop]
    · rw [hclient'] at hnone
      cases hnone
    · rw [hcontext]
      refine (hc.place uidl ?_).extends he
      unfold opened at huidl
      cases hplace : c.place with
      | opening =>
        rw [hplace] at huidl
        rcases huidl with heq | heq <;> cases heq
      | _ =>
        rw [hplace] at huidl
        exact huidl

/-- A DELE of a message whose mail is stored. -/
theorem sound_delete_marked (h : Mailboxes s) (hc : Follows s c) {uidl : String}
    (hstored : Stored s.db c.context.account_id uidl) {action : Action} {after : Collecting}
    (hafter : after = c.go .head ∨ after = c.duplicated.go .head) {answered : Bool}
    (hdele : delete_marked c uidl action after answered s = some (phase', s')) :
    Sound s phase' s' := by
  unfold delete_marked at hdele
  cases hclient : c.client with
  | none =>
    rw [hclient] at hdele
    cases hdele
  | some i => cases hn : Maildrop.number c.numbers uidl with
    | none =>
      rw [hclient, hn] at hdele
      cases hdele
    | some n =>
      rw [hclient, hn] at hdele
      obtain ⟨d, hd, hpair⟩ := Option.map_eq_some_iff.1 hdele
      have he := extends_setDrop s c.context.account_id (Maildrop.evolves_dele hd)
      obtain ⟨session, u, hsession, hopen, hu, hdrop⟩ := Maildrop.dele_eq_some hd
      obtain ⟨session', hsession', hnumbers, hpending⟩ := hc.session i hclient
      rw [hsession] at hsession'
      cases hsession'
      have hnodup := h.numbering _ session (List.mem_of_getElem? hsession)
      -- The number is that of the message in this session.
      have hu : u = uidl := by
        rw [hnumbers] at hu hnodup
        exact Option.some.inj (hu.symm.trans (Maildrop.message_number hnodup hn))
      subst hu
      have hmailboxes : Mailboxes (s.setDrop c.context.account_id d) := by
        refine h.setDrop _ (Maildrop.evolves_dele hd) (fun t ht => ?_)
        rw [hdrop] at ht
        rcases List.mem_or_eq_of_mem_set ht with ht | rfl
        · exact ⟨h.numbering _ t ht, h.marked _ t ht⟩
        · refine ⟨hnodup, fun v hv => ?_⟩
          rcases List.mem_append.1 hv with hv | hv
          · exact h.marked _ session (List.mem_of_getElem? hsession) v hv
          · obtain rfl := List.mem_singleton.1 hv
            exact hstored
      dsimp only at hpair
      split_ifs at hpair with hanswered
      · cases hpair
        refine ⟨hmailboxes, ?_, he⟩
        have hcontext : after.context = c.context ∧ after.client = c.client ∧
            after.numbers = c.numbers ∧ after.pending = c.pending ∧ after.place = .head := by
          rcases hafter with rfl | rfl
          · exact ⟨rfl, rfl, rfl, rfl, rfl⟩
          · exact ⟨rfl, rfl, rfl, rfl, rfl⟩
        obtain ⟨hctx, hcl, hnum, hpen, hpl⟩ := hcontext
        refine ⟨fun j hj => ?_, fun hnone => ?_, fun heq => ?_, fun v hv => ?_⟩
        · change after.client = some j at hj
          rw [hcl, hclient] at hj
          cases hj
          refine ⟨{ session with marked := session.marked ++ [u] }, ?_, hnumbers.trans hnum.symm,
            fun v hv => ?_⟩
          · change (if after.context.account_id = c.context.account_id then d else _).sessions[i]? = _
            rw [hctx, if_pos rfl, hdrop]
            exact List.getElem?_set_self (List.getElem?_eq_some_iff.1 hsession).1
          · change v ∈ after.pending ++ [u] at hv
            rw [hpen] at hv
            rcases List.mem_append.1 hv with hv | hv
            · exact List.mem_append_left _ (hpending v hv)
            · exact List.mem_append_right _ hv
        · change after.client = none at hnone
          rw [hcl, hclient] at hnone
          cases hnone
        · change after.place = _ at heq
          rw [hpl] at heq
          cases heq
        · change after.place = _ ∨ after.place = _ at hv
          rw [hpl] at hv
          rcases hv with heq | heq <;> cases heq
      · cases hpair
        exact Sound.trans he (sound_handle hmailboxes (hc.extends he) u action .protocol)

theorem sound_import_item (h : Mailboxes s) (hc : Follows s c) (uidl : String) (size octets : Nat)
    (raw : Mime) {message_id : String} (hnew : s.db.messages.rows message_id = none) (now : Time)
    (marked : Option ItemError) :
    Sound s (import_item c uidl size octets raw message_id now marked s).1
      (import_item c uidl size octets raw message_id now marked s).2 := by
  unfold import_item
  by_cases hsize : size ≤ raw_limit ∧ octets ≤ raw_limit
  · rw [if_pos hsize]
    cases parse_external_message raw with
    | none => exact sound_handle h hc uidl .import_ .other
    | some parsed =>
      dsimp only
      rcases hstore : _store c.context uidl parsed message_id now s.db with ⟨_ | _, db⟩
      · have hrun : Follows s (c.duplicated.go .head) := hc.pass rfl rfl rfl rfl rfl
        rw [store_false hstore]
        exact .same h hrun
      · obtain ⟨hmailboxes, hstored⟩ := h.store hnew hstore
        have he := extends_store hnew hstore
        cases marked with
        | some error =>
          exact Sound.trans he (sound_handle hmailboxes (hc.extends he) uidl .import_ error)
        | none =>
          refine ⟨hmailboxes, (hc.extends he).go rfl rfl rfl rfl (fun heq => ?_) (fun u hu => ?_),
            he⟩
          · change (if c.context.account.delete_from_server then Place.stored uidl
              else Place.head) = _ at heq
            split_ifs at heq
          change (if c.context.account.delete_from_server then Place.stored uidl
            else Place.head) = _ ∨ (if c.context.account.delete_from_server then Place.stored uidl
              else Place.head) = _ at hu
          split_ifs at hu with hdelete
          · rcases hu with heq | heq
            · cases heq
              exact hstored
            · cases heq
          · rcases hu with heq | heq <;> cases heq
  · rw [if_neg hsize]
    exact sound_handle h hc uidl .import_ .other

/-! ## Writes to the other tables -/

theorem untouched_heartbeat (job_id : String) (now : Time) (db : Db) :
    Untouched db (_heartbeat job_id now db).2 := by
  unfold _heartbeat
  cases leasedJob db job_id with
  | none => exact ⟨rfl, rfl⟩
  | some job => exact ⟨rfl, rfl⟩

theorem untouched_insert_job {job_id : String} {job : CollectionJob} {db db' : Db}
    (h : insert_job job_id job db = some db') : Untouched db db' := by
  unfold insert_job at h
  split_ifs at h with hfree
  cases h
  exact ⟨rfl, rfl⟩

theorem untouched_enqueue_one (now : Time) (db : Db) (due : String × String × Account) :
    Untouched db (enqueue_one now db due) := by
  unfold enqueue_one
  cases h : insert_job due.1
      (queuedJob due.2.1 due.2.2.company_id due.2.2.user_id .scheduled now) db with
  | none => exact ⟨rfl, rfl⟩
  | some db' => exact untouched_insert_job h

theorem untouched_enqueue_all (now : Time) (due : List (String × String × Account)) (db : Db) :
    Untouched db (due.foldl (enqueue_one now) db) := by
  induction due generalizing db with
  | nil => exact ⟨rfl, rfl⟩
  | cons one due ih =>
    have hone := untouched_enqueue_one now db one
    have hrest := ih (enqueue_one now db one)
    exact ⟨hrest.1.trans hone.1, hrest.2.trans hone.2⟩

theorem untouched_enqueue (now : Time) (due : List (String × Account)) (ids : List String)
    (db : Db) : Untouched db (_enqueue_scheduled now due ids db) :=
  untouched_enqueue_all now (ids.zip due) _

theorem untouched_claim (now : Time) (locked : List String) (db : Db) :
    Untouched db (_claim now locked db).2 := by
  unfold _claim
  split
  · exact ⟨rfl, rfl⟩
  · exact ⟨rfl, rfl⟩

theorem untouched_finalize (job : ClaimedJob) (status : JobStatus) (counts : Counts)
    (code : Option String) (now : Time) (db : Db) :
    Untouched db (_finalize job status counts code now db).2 := by
  unfold _finalize
  cases leasedJob db job.id with
  | none => exact ⟨rfl, rfl⟩
  | some row => exact ⟨rfl, rfl⟩

theorem untouched_retry_later (job : ClaimedJob) (now : Time) (db : Db) :
    Untouched db (retry_later job now db) := by
  unfold retry_later
  cases leasedJob db job.id with
  | none => exact ⟨rfl, rfl⟩
  | some row => exact ⟨rfl, rfl⟩

/-! ## One step of a run -/

theorem sound_set_states (h : Mailboxes s) (hc : Follows s c) {now : Time}
    (hstates : collect (.set_states now) c s = some (phase', s')) : Sound s phase' s' := by
  have hfailed : ∀ (uidls : List String) (code : Option String) {c' : Collecting},
      Follows s c' → Sound s (.collecting c') { s with
        db := _set_remote_states c.context.account_id uidls .failed code now s.db } := by
    intro uidls code c' hc'
    have he := extends_set_remote_states s c.context.account_id uidls .failed code now
    refine ⟨h.set_remote_states _ _ _ _ _ ?_, hc'.extends he, he⟩
    exact fun heq => RemoteDeleteStatus.noConfusion heq
  dsimp only [collect] at hstates
  cases hplace : c.place with
  | handling uidl action lost =>
    rw [hplace] at hstates
    cases lost with
    | nil =>
      have hgo : Follows s (c.go .head) := hc.pass rfl rfl rfl rfl rfl
      dsimp only at hstates
      split_ifs at hstates with hdelete
      · cases hstates
        exact hfailed _ _ hgo
      · cases hstates
        exact .same h hgo
    | cons u lost =>
      cases hstates
      exact hfailed _ _ (Follows.pass hc rfl rfl rfl rfl rfl)
  | _ =>
    rw [hplace] at hstates
    cases hstates

theorem sound_quit (h : Mailboxes s) (hc : Follows s c) {sees : Option Bool}
    (hquit : collect (.quit sees) c s = some (phase', s')) : Sound s phase' s' := by
  dsimp only [collect] at hquit
  split_ifs at hquit with hplace
  cases hquit
  refine ⟨h.leave _ _ _, fun hok u hu => ?_, extends_leave _ _ _ _⟩
  obtain ⟨hconnected, hsees⟩ := Bool.and_eq_true_iff.1 hok
  cases hclient : c.client with
  | none =>
    unfold connected at hconnected
    rw [hclient] at hconnected
    cases hconnected
  | some i =>
    obtain ⟨session, hsession, _, hpending⟩ := hc.session i hclient
    unfold connected at hconnected
    rw [hclient, Option.bind_some, hsession] at hconnected
    have hopen : session.ending = none := Option.isNone_iff_eq_none.1 hconnected
    rw [of_decide_eq_true hsees]
    change ((s.setDrop c.context.account_id _).drops c.context.account_id).Confirmed u
    unfold Store.setDrop
    dsimp only
    rw [if_pos rfl]
    exact Maildrop.confirmed_of_quit hsession hopen (hpending u hu)

theorem sound_look (h : Mailboxes s) (hc : Follows s c)
    (hlook : collect .look c s = some (phase', s')) : Sound s phase' s' := by
  dsimp only [collect] at hlook
  cases hplace : c.place with
  | looking uidl =>
    rw [hplace] at hlook
    dsimp only at hlook
    split_ifs at hlook with hduplicate
    · cases hlook
      have hgo : Follows s (c.duplicated.go .head) := hc.pass rfl rfl rfl rfl rfl
      exact .same h hgo
    · cases hlook
      refine .same h (Follows.go hc rfl rfl rfl rfl (fun heq => Place.noConfusion heq) ?_)
      rintro u (heq | heq)
      · cases heq
      · -- Only a message with an import row is deleted without a download.
        injection heq with huidl haction
        subst huidl
        cases hrow : s.db.imports.rows (c.context.account_id, uidl) with
        | none =>
          unfold _import_state at haction
          rw [hrow] at haction
          cases haction
        | some row => exact h.stored hrow
  | _ =>
    rw [hplace] at hlook
    cases hlook

theorem sound_heartbeat (h : Mailboxes s) (hc : Follows s c) {now : Time} {sees : Option Bool}
    (hbeat : collect (.heartbeat now sees) c s = some (phase', s')) : Sound s phase' s' := by
  dsimp only [collect] at hbeat
  split_ifs at hbeat with hplace
  have hsame := untouched_heartbeat c.job.id now s.db
  rcases hlease : _heartbeat c.job.id now s.db with ⟨_ | _, db⟩
  · rw [hlease] at hbeat
    cases hbeat
    exact ⟨h.leave _ _ _, trivial, extends_leave _ _ _ _⟩
  · rw [hlease] at hbeat hsame
    cases htodo : c.todo with
    | nil =>
      rw [htodo] at hbeat
      cases hbeat
      exact .setDb h hsame.1 hsame.2 (Follows.pass hc rfl rfl rfl rfl rfl)
    | cons uidl todo =>
      rw [htodo] at hbeat
      cases hbeat
      exact .setDb h hsame.1 hsame.2 (Follows.pass hc rfl rfl rfl rfl rfl)

theorem sound_collect (h : Mailboxes s) (hc : Follows s c)
    (hstep : collect act c s = some (phase', s')) : Sound s phase' s' := by
  cases act with
  | open_connection listing =>
    dsimp only [collect] at hstep
    cases hplace : c.place with
    | opening =>
      rw [hplace] at hstep
      exact sound_open_connection h hc (hc.opening hplace) hstep
    | acting uidl action =>
      rw [hplace] at hstep
      dsimp only at hstep
      split_ifs at hstep with hclient
      exact sound_open_connection h hc hclient hstep
    | _ =>
      rw [hplace] at hstep
      cases hstep
  | heartbeat now sees => exact sound_heartbeat h hc hstep
  | look => exact sound_look h hc hstep
  | disappear =>
    dsimp only [collect] at hstep
    cases hplace : c.place with
    | acting uidl action =>
      rw [hplace] at hstep
      dsimp only at hstep
      split_ifs at hstep with hgone
      cases hstep
      exact .same h (Follows.pass hc rfl rfl rfl rfl rfl)
    | _ =>
      rw [hplace] at hstep
      cases hstep
  | dele answered =>
    dsimp only [collect] at hstep
    cases hplace : c.place with
    | acting uidl action =>
      rw [hplace] at hstep
      cases action with
      | delete_only =>
        exact sound_delete_marked h hc (hc.place uidl (.inr hplace)) (.inr rfl) hstep
      | _ => cases hstep
    | stored uidl =>
      rw [hplace] at hstep
      exact sound_delete_marked h hc (hc.place uidl (.inl hplace)) (.inl rfl) hstep
    | _ =>
      rw [hplace] at hstep
      cases hstep
  | store size octets raw message_id now marked =>
    dsimp only [collect] at hstep
    cases hplace : c.place with
    | acting uidl action =>
      rw [hplace] at hstep
      cases action with
      | import_ =>
        dsimp only at hstep
        split_ifs at hstep with hready
        have hitem := sound_import_item h hc uidl size octets raw hready.2.2 now marked
        rw [Option.some.inj hstep] at hitem
        exact hitem
      | _ => cases hstep
    | _ =>
      rw [hplace] at hstep
      cases hstep
  | raised error sees =>
    dsimp only [collect] at hstep
    cases hplace : c.place with
    | opening =>
      rw [hplace] at hstep
      cases hstep
      exact sound_generic h c sees
    | head =>
      rw [hplace] at hstep
      cases hstep
      exact sound_generic h c sees
    | looking uidl =>
      rw [hplace] at hstep
      obtain ⟨rfl, rfl⟩ := Prod.mk.inj (Option.some.inj hstep)
      exact sound_handle h hc uidl .import_ error
    | acting uidl action =>
      rw [hplace] at hstep
      obtain ⟨rfl, rfl⟩ := Prod.mk.inj (Option.some.inj hstep)
      exact sound_handle h hc uidl action error
    | stored uidl =>
      rw [hplace] at hstep
      obtain ⟨rfl, rfl⟩ := Prod.mk.inj (Option.some.inj hstep)
      exact sound_handle h hc uidl .import_ error
    | handling uidl action lost =>
      rw [hplace] at hstep
      cases hstep
      exact sound_generic h c sees
    | quitting =>
      rw [hplace] at hstep
      cases hstep
  | set_states now => exact sound_set_states h hc hstep
  | quit sees => exact sound_quit h hc hstep
  | _ => cases hstep

theorem sound_record_states (h : Mailboxes s) {quit_ok : Bool}
    (hc : RunInv s (.recording c quit_ok)) {now : Time}
    (hstep : turn (.record_states now) (.recording c quit_ok) s = some (phase', s')) :
    Sound s phase' s' := by
  cases hstep
  by_cases hpending : c.pending = []
  · simp only [if_pos hpending]
    exact .same h trivial
  · simp only [if_neg hpending]
    cases quit_ok with
    | true =>
      have hmailboxes := h.set_remote_states c.context.account_id c.pending .deleted none now
        (fun _ => hc rfl)
      exact ⟨hmailboxes, trivial, extends_set_remote_states s _ _ _ _ _⟩
    | false =>
      have hmailboxes := h.set_remote_states c.context.account_id c.pending .failed
        (some "MAIL_EXTERNAL_QUIT_FAILED") now (fun heq => RemoteDeleteStatus.noConfusion heq)
      exact ⟨hmailboxes, trivial, extends_set_remote_states s _ _ _ _ _⟩

theorem turn_collecting (act : Act) (c : Collecting) (s : Store) :
    turn act (.collecting c) s = collect act c s := by cases act <;> rfl

theorem sound_turn (h : Mailboxes s) {phase : Phase} (hrun : RunInv s phase)
    (hstep : turn act phase s = some (phase', s')) : Sound s phase' s' := by
  have hwrite : ∀ {db : Db} {next : Phase}, Untouched s.db db → RunInv s next →
      Sound s next { s with db := db } := fun hsame hnext => .setDb h hsame.1 hsame.2 hnext
  cases phase with
  | idle => cases act with
    | select_due now =>
      cases hstep
      exact .same h trivial
    | _ => cases hstep
  | enqueuing due => cases act with
    | enqueue now ids =>
      cases hstep
      exact hwrite (untouched_enqueue now due ids s.db) trivial
    | _ => cases hstep
  | enqueued => cases act with
    | claim now locked =>
      have hsame := untouched_claim now locked s.db
      dsimp only [turn] at hstep
      rcases hclaim : _claim now locked s.db with ⟨_ | job, db⟩
      · rw [hclaim] at hstep hsame
        cases hstep
        exact hwrite hsame trivial
      · rw [hclaim] at hstep hsame
        cases hstep
        exact hwrite hsame trivial
    | _ => cases hstep
  | claimed job => cases act with
    | read_context =>
      dsimp only [turn] at hstep
      cases hcontext : _context job s.db with
      | none =>
        rw [hcontext] at hstep
        cases hstep
        exact .same h trivial
      | some context =>
        rw [hcontext] at hstep
        cases hstep
        have hfollows : Follows s ⟨job, context, none, [], [], [], .zero, .opening⟩ := by
          refine ⟨fun i hi => absurd hi.symm (Option.some_ne_none i), fun _ => rfl, fun _ => rfl, ?_⟩
          rintro u (heq | heq) <;> cases heq
        exact .same h hfollows
    | raised error sees =>
      cases hstep
      exact .same h trivial
    | _ => cases hstep
  | collecting c => exact sound_collect h hrun ((turn_collecting act c s).symm.trans hstep)
  | recording c quit_ok => cases act with
    | record_states now => exact sound_record_states h hrun hstep
    | raised error sees =>
      cases hstep
      exact .same h trivial
    | _ => cases hstep
  | finalizing job counts => cases act with
    | finalize now =>
      cases hstep
      exact hwrite (untouched_finalize _ _ _ _ _ _) trivial
    | raised error sees =>
      cases hstep
      exact .same h trivial
    | _ => cases hstep
  | failing job counts => cases act with
    | fail now =>
      cases hstep
      refine hwrite ?_ trivial
      split_ifs
      · exact untouched_retry_later job now s.db
      · exact untouched_finalize _ _ _ _ _ _
    | _ => cases hstep

/-! ## The marks that a step leaves -/

/-- The marks after a step are those before, or the step was over the mailboxes only. -/
def KeepsMarks (s s' : Store) : Prop :=
  (∀ account_id, (s.drops account_id).MarksFrom (s'.drops account_id)) ∨ s'.db = s.db

theorem KeepsMarks.same_drops (h : s'.drops = s.drops) : KeepsMarks s s' :=
  .inl fun _ => Maildrop.marksFrom_of_eq (by rw [h])

theorem leave_db (s : Store) (account_id : String) (client : Option Nat) (sees : Option Bool) :
    (leave s account_id client sees).db = s.db := by
  unfold leave
  cases client with
  | none => rfl
  | some i => cases sees with
    | none => rfl
    | some replied => rfl

theorem marksFrom_setDrop (s : Store) (account_id : String) {d : Maildrop String}
    (h : (s.drops account_id).MarksFrom d) (id : String) :
    (s.drops id).MarksFrom ((s.setDrop account_id d).drops id) := by
  change (s.drops id).MarksFrom (if id = account_id then d else s.drops id)
  split_ifs with hid
  · rw [hid]
    exact h
  · exact Maildrop.marksFrom_of_eq rfl

theorem marksFrom_handle (c : Collecting) (uidl : String) (action : Action) (error : ItemError)
    (s : Store) (id : String) :
    (s.drops id).MarksFrom ((handle c uidl action error s).2.drops id) := by
  cases error with
  | other => exact Maildrop.marksFrom_of_eq rfl
  | protocol =>
    change (s.drops id).MarksFrom ((leave s c.context.account_id c.client none).drops id)
    unfold leave
    cases c.client with
    | none => exact Maildrop.marksFrom_of_eq rfl
    | some i => exact marksFrom_setDrop s _ (Maildrop.marksFrom_cut _ i) id

theorem handle_db (c : Collecting) (uidl : String) (action : Action) (error : ItemError)
    (s : Store) : (handle c uidl action error s).2.db = s.db := by
  cases error with
  | other => rfl
  | protocol => exact leave_db s c.context.account_id c.client none

theorem open_connection_db {listing : Option (List (String × Nat))}
    (h : open_connection c listing s = some (phase', s')) : s'.db = s.db := by
  cases listing with
  | none =>
    unfold open_connection at h
    dsimp only at h
    cases hplace : c.place with
    | opening =>
      rw [hplace] at h
      obtain ⟨_, rfl⟩ := Prod.mk.inj (Option.some.inj h)
      exact leave_db s c.context.account_id c.client none
    | acting uidl action =>
      rw [hplace] at h
      obtain ⟨_, rfl⟩ := Prod.mk.inj (Option.some.inj h)
      exact handle_db c uidl action .protocol s
    | _ =>
      rw [hplace] at h
      cases h
  | some numbering =>
    obtain ⟨d, _, hpair⟩ := Option.map_eq_some_iff.1 h
    cases hpair
    rfl

theorem delete_marked_db {after : Collecting} {uidl : String} {action : Action} {answered : Bool}
    (h : delete_marked c uidl action after answered s = some (phase', s')) : s'.db = s.db := by
  unfold delete_marked at h
  split at h
  · obtain ⟨d, _, hpair⟩ := Option.map_eq_some_iff.1 h
    dsimp only at hpair
    split_ifs at hpair with hanswered
    · cases hpair
      rfl
    · obtain ⟨_, rfl⟩ := Prod.mk.inj hpair
      exact handle_db c uidl action .protocol (s.setDrop c.context.account_id d)
  · cases h

theorem marksFrom_import_item (c : Collecting) (uidl : String) (size octets : Nat) (raw : Mime)
    (message_id : String) (now : Time) (marked : Option ItemError) (s : Store) (id : String) :
    (s.drops id).MarksFrom
      ((import_item c uidl size octets raw message_id now marked s).2.drops id) := by
  unfold import_item
  by_cases hsize : size ≤ raw_limit ∧ octets ≤ raw_limit
  · rw [if_pos hsize]
    cases parse_external_message raw with
    | none => exact marksFrom_handle c uidl .import_ .other s id
    | some parsed =>
      dsimp only
      rcases _store c.context uidl parsed message_id now s.db with ⟨_ | _, db⟩
      · exact Maildrop.marksFrom_of_eq rfl
      · cases marked with
        | some error => exact marksFrom_handle c uidl .import_ error { s with db := db } id
        | none => exact Maildrop.marksFrom_of_eq rfl
  · rw [if_neg hsize]
    exact marksFrom_handle c uidl .import_ .other s id

theorem keepsMarks_collect (hstep : collect act c s = some (phase', s')) : KeepsMarks s s' := by
  have hitem : ∀ {pair : Phase × Store}, (∀ id, (s.drops id).MarksFrom (pair.2.drops id)) →
      some pair = some (phase', s') → KeepsMarks s s' := by
    intro pair hmarks heq
    rw [Option.some.inj heq] at hmarks
    exact .inl hmarks
  cases act with
  | open_connection listing =>
    dsimp only [collect] at hstep
    split at hstep
    · exact .inr (open_connection_db hstep)
    · split_ifs at hstep
      exact .inr (open_connection_db hstep)
    · cases hstep
  | heartbeat now sees =>
    dsimp only [collect] at hstep
    split_ifs at hstep
    split at hstep
    · cases hstep
      exact .inr (leave_db s _ _ _)
    · split at hstep
      · cases hstep
        exact .same_drops rfl
      · cases hstep
        exact .same_drops rfl
  | look =>
    dsimp only [collect] at hstep
    split at hstep
    · split_ifs at hstep
      · cases hstep
        exact .inr rfl
      · cases hstep
        exact .inr rfl
    · cases hstep
  | disappear =>
    dsimp only [collect] at hstep
    split at hstep
    · split_ifs at hstep
      cases hstep
      exact .inr rfl
    · cases hstep
  | dele answered =>
    dsimp only [collect] at hstep
    split at hstep
    · exact .inr (delete_marked_db hstep)
    · exact .inr (delete_marked_db hstep)
    · cases hstep
  | store size octets raw message_id now marked =>
    dsimp only [collect] at hstep
    split at hstep
    · split_ifs at hstep
      exact hitem (marksFrom_import_item c _ size octets raw message_id now marked s) hstep
    · cases hstep
  | raised error sees =>
    dsimp only [collect] at hstep
    split at hstep
    · cases hstep
      exact .inr (leave_db s _ _ _)
    · cases hstep
      exact .inr (leave_db s _ _ _)
    · exact hitem (marksFrom_handle c _ _ error s) hstep
    · exact hitem (marksFrom_handle c _ _ error s) hstep
    · exact hitem (marksFrom_handle c _ _ error s) hstep
    · cases hstep
      exact .inr (leave_db s _ _ _)
    · cases hstep
  | set_states now =>
    dsimp only [collect] at hstep
    split at hstep
    · cases hstep
      exact .same_drops rfl
    · cases hstep
      exact .same_drops rfl
    · cases hstep
  | quit sees =>
    dsimp only [collect] at hstep
    split_ifs at hstep
    cases hstep
    exact .inr (leave_db s _ _ _)
  | _ => cases hstep

theorem keepsMarks_turn {phase : Phase} (hstep : turn act phase s = some (phase', s')) :
    KeepsMarks s s' := by
  cases phase with
  | collecting c => exact keepsMarks_collect ((turn_collecting act c s).symm.trans hstep)
  | enqueued => cases act with
    | claim now locked =>
      dsimp only [turn] at hstep
      split at hstep
      · cases hstep
        exact .same_drops rfl
      · cases hstep
        exact .same_drops rfl
    | _ => cases hstep
  | claimed job => cases act with
    | read_context =>
      dsimp only [turn] at hstep
      cases hcontext : _context job s.db with
      | none =>
        rw [hcontext] at hstep
        cases hstep
        exact .inr rfl
      | some context =>
        rw [hcontext] at hstep
        cases hstep
        exact .inr rfl
    | raised error sees =>
      cases hstep
      exact .inr rfl
    | _ => cases hstep
  | _ => cases act with
    | select_due now =>
      cases hstep
      all_goals exact .same_drops rfl
    | enqueue now ids =>
      cases hstep
      all_goals exact .same_drops rfl
    | record_states now =>
      cases hstep
      all_goals exact .same_drops rfl
    | finalize now =>
      cases hstep
      all_goals exact .same_drops rfl
    | fail now =>
      cases hstep
      all_goals exact .same_drops rfl
    | raised error sees =>
      cases hstep
      all_goals exact .same_drops rfl
    | _ => cases hstep

end moaworks.mail_external
