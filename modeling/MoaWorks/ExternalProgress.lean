-- The progress of the collection: what a run in which nothing fails makes of the mailbox and of
-- the imports of its account.
import MoaWorks.ExternalSteps
import MoaWorks.Lib.Window

namespace moaworks.mail_external

/-- What goes on beside a run leaves the mailbox of its account alone, and its imports. -/
def Undisturbed (account_id : String) (s s' : Store) : Prop :=
  s'.drops account_id = s.drops account_id ∧
  ∀ uidl, _import_state s'.db account_id uidl = _import_state s.db account_id uidl

/-- The run goes on, and has counted no failure. -/
def Phase.clean : Phase → Bool
  | .collecting c => decide (c.counts.failed = 0)
  | .recording c quit_ok => quit_ok && decide (c.counts.failed = 0)
  | .finalizing _ counts => decide (counts.failed = 0)
  | _ => false

/-- The server lists all its messages. -/
def Act.lists (messages : List String) : Act → Bool
  | .open_connection (some numbering) => decide (numbering.map Prod.fst = messages)
  | _ => true

/-- A part of a run in which no command, parse or write fails. -/
inductive Smooth (account_id : String) (phase : Phase) (s : Store) : Phase → Store → Prop
  | here : Smooth account_id phase s phase s
  | turn {phase' phase'' : Phase} {s' s'' : Store} (act : Act)
    (before : Smooth account_id phase s phase' s')
    (lists : act.lists (s'.drops account_id).messages = true)
    (turns : turn act phase' s' = some (phase'', s'')) (clean : phase''.clean = true) :
    Smooth account_id phase s phase'' s''
  | beside {phase' : Phase} {s' s'' : Store} (before : Smooth account_id phase s phase' s')
    (undisturbed : Undisturbed account_id s' s'') : Smooth account_id phase s phase' s''

/-- What `read_context` leaves. -/
def Collecting.start (job : ClaimedJob) (context : Context) : Collecting :=
  ⟨job, context, none, [], [], [], .zero, .opening⟩

/-- A run of the account, up to the counts that it gives to `_finalize`. -/
def SmoothRun (context : Context) (s : Store) (counts : Counts) (s' : Store) : Prop :=
  ∃ job, _context job s.db = some context ∧
    Smooth context.account_id (.collecting (.start job context)) s (.finalizing job counts) s'

/-! ## What a run does to one message -/

/-- The message is marked for deletion when the run comes to it. -/
def marks (delete_enabled : Bool) (status : Option RemoteDeleteStatus) : Bool :=
  delete_enabled && decide (uidl_action status delete_enabled ≠ .duplicate)

/-- The status once the message has a row. -/
def passed (delete_enabled : Bool) (status : Option RemoteDeleteStatus) : RemoteDeleteStatus :=
  status.getD (if delete_enabled then .pending else .kept)

/-- The status after the run. -/
def recorded (delete_enabled : Bool) (status : Option RemoteDeleteStatus) : RemoteDeleteStatus :=
  if marks delete_enabled status then .deleted else passed delete_enabled status

theorem uidl_action_import {status : Option RemoteDeleteStatus} {delete_enabled : Bool}
    (h : uidl_action status delete_enabled = .import_) : status = none := by
  cases status with
  | none => rfl
  | some status => cases status <;> cases delete_enabled <;> cases h

theorem uidl_action_known {status : Option RemoteDeleteStatus} {delete_enabled : Bool}
    (h : uidl_action status delete_enabled ≠ .import_) : status.isSome = true := by
  cases status with
  | none => exact absurd rfl h
  | some status => rfl

theorem uidl_action_delete_only {status : Option RemoteDeleteStatus} {delete_enabled : Bool}
    (h : uidl_action status delete_enabled = .delete_only) : marks delete_enabled status = true := by
  unfold marks
  rw [h, Bool.and_eq_true]
  refine ⟨?_, by decide⟩
  cases delete_enabled with
  | true => rfl
  | false => cases status with
    | none => cases h
    | some status => cases status <;> cases h

theorem marks_none (delete_enabled : Bool) : marks delete_enabled none = delete_enabled := by
  unfold marks
  cases delete_enabled <;> rfl

theorem marks_duplicate {status : Option RemoteDeleteStatus} {delete_enabled : Bool}
    (h : uidl_action status delete_enabled = .duplicate) : marks delete_enabled status = false := by
  unfold marks
  rw [h, decide_eq_false (fun hne => hne rfl), Bool.and_false]

/-! ## The loop over the messages -/

section Loop

variable {context : Context} {messages : List String}
  {status : String → Option RemoteDeleteStatus}

/-- The run has gone over the messages `seen`, and the messages `stored` have a row; `status` is
what the imports were before. -/
structure Passing (context : Context) (messages : List String)
    (status : String → Option RemoteDeleteStatus) (seen stored : List String) (c : Collecting)
    (s : Store) : Prop where
  account : c.context = context
  nodup : messages.Nodup
  mailbox : (s.drops context.account_id).messages = messages
  states : ∀ uidl, _import_state s.db context.account_id uidl =
    if uidl ∈ stored then some (passed context.account.delete_from_server (status uidl))
    else status uidl
  session : ∃ i session, c.client = some i ∧
    (s.drops context.account_id).sessions[i]? = some session ∧ session.ending = none ∧
    session.numbering = c.numbers ∧ session.marked = c.pending
  numbers : (c.numbers.map Prod.snd).Nodup
  imported : c.counts.imported = stored.countP (fun uidl => (status uidl).isNone)
  pending : c.pending =
    seen.filter (fun uidl => marks context.account.delete_from_server (status uidl))
  unfailed : c.counts.failed = 0

variable {seen stored : List String} {c : Collecting} {s : Store}

theorem Passing.undisturbed (h : Passing context messages status seen stored c s) {s' : Store}
    (hs : Undisturbed context.account_id s s') :
    Passing context messages status seen stored c s' :=
  { h with
    mailbox := by
      rw [hs.1]
      exact h.mailbox
    states := fun uidl => (hs.2 uidl).trans (h.states uidl)
    session := by
      rw [hs.1]
      exact h.session }

/-- A step of the run that only moves on. -/
theorem Passing.pass (h : Passing context messages status seen stored c s) {c' : Collecting}
    (hcontext : c'.context = c.context) (hclient : c'.client = c.client)
    (hnumbers : c'.numbers = c.numbers) (hpending : c'.pending = c.pending)
    (himported : c'.counts.imported = c.counts.imported)
    (hfailed : c'.counts.failed = c.counts.failed) :
    Passing context messages status seen stored c' s where
  account := hcontext.trans h.account
  nodup := h.nodup
  mailbox := h.mailbox
  states := h.states
  session := by
    rw [hclient, hnumbers, hpending]
    exact h.session
  numbers := by
    rw [hnumbers]
    exact h.numbers
  imported := himported.trans h.imported
  pending := hpending.trans h.pending
  unfailed := hfailed.trans h.unfailed

/-- A message that had a row before the run. -/
theorem Passing.known (h : Passing context messages status seen stored c s) {uidl : String}
    (hknown : (status uidl).isSome = true) :
    Passing context messages status seen (stored ++ [uidl]) c s :=
  { h with
    states := by
      intro u
      rw [h.states]
      by_cases hu : u = uidl
      · subst hu
        obtain ⟨state, hstate⟩ := Option.isSome_iff_exists.1 hknown
        rw [if_pos (List.mem_append_right _ List.mem_cons_self), hstate]
        exact ite_self _
      · have hmem : u ∈ stored ++ [uidl] ↔ u ∈ stored := by
          rw [List.mem_append, List.mem_singleton]
          exact or_iff_left hu
        exact (if_congr hmem rfl rfl).symm
    imported := by
      rw [h.imported, List.countP_append, List.countP_singleton,
        Option.isNone_eq_false_iff.2 hknown]
      rfl }

/-- A message that the run has stored. -/
theorem Passing.fresh (h : Passing context messages status seen stored c s) {uidl : String}
    (hnone : status uidl = none) {s' : Store}
    (hdrop : s'.drops context.account_id = s.drops context.account_id)
    (hstates : ∀ u, _import_state s'.db context.account_id u =
      if u = uidl then some (if context.account.delete_from_server then .pending else .kept)
      else _import_state s.db context.account_id u) {c' : Collecting}
    (hcontext : c'.context = c.context) (hclient : c'.client = c.client)
    (hnumbers : c'.numbers = c.numbers) (hpending : c'.pending = c.pending)
    (himported : c'.counts.imported = c.counts.imported + 1)
    (hfailed : c'.counts.failed = c.counts.failed) :
    Passing context messages status seen (stored ++ [uidl]) c' s' where
  account := hcontext.trans h.account
  nodup := h.nodup
  mailbox := by
    rw [hdrop]
    exact h.mailbox
  states := by
    intro u
    rw [hstates]
    by_cases hu : u = uidl
    · subst hu
      rw [if_pos rfl, if_pos (List.mem_append_right _ List.mem_cons_self), hnone]
      rfl
    · have hmem : u ∈ stored ++ [uidl] ↔ u ∈ stored := by
        rw [List.mem_append, List.mem_singleton]
        exact or_iff_left hu
      rw [if_neg hu, h.states]
      exact (if_congr hmem rfl rfl).symm
  session := by
    rw [hclient, hnumbers, hpending, hdrop]
    exact h.session
  numbers := by
    rw [hnumbers]
    exact h.numbers
  imported := by
    rw [himported, h.imported, List.countP_append, List.countP_singleton, hnone]
    rfl
  pending := hpending.trans h.pending
  unfailed := hfailed.trans h.unfailed

/-- A message that stays on the server. -/
theorem Passing.unmarked (h : Passing context messages status seen stored c s) {uidl : String}
    (hstays : marks context.account.delete_from_server (status uidl) = false) :
    Passing context messages status (seen ++ [uidl]) stored c s :=
  { h with
    pending := by
      rw [h.pending, List.filter_append, List.filter_cons_of_neg (by rw [hstays]; decide),
        List.filter_nil, List.append_nil] }

/-- A message with a DELE that the server has answered. -/
theorem Passing.marked (h : Passing context messages status seen stored c s) {uidl : String}
    (hmarks : marks context.account.delete_from_server (status uidl) = true) {i n : Nat}
    (hclient : c.client = some i) (hn : Maildrop.number c.numbers uidl = some n)
    {d : Maildrop String} (hd : (s.drops context.account_id).dele i n = some d) {c' : Collecting}
    (hcontext : c'.context = c.context) (hclient' : c'.client = c.client)
    (hnumbers : c'.numbers = c.numbers) (hpending : c'.pending = c.pending ++ [uidl])
    (himported : c'.counts.imported = c.counts.imported)
    (hfailed : c'.counts.failed = c.counts.failed) :
    Passing context messages status (seen ++ [uidl]) stored c'
      (s.setDrop context.account_id d) := by
  obtain ⟨session, u, hsession, hopen, hu, rfl⟩ := Maildrop.dele_eq_some hd
  obtain ⟨j, session', hclient'', hsession', _, hnumbering, hmarked⟩ := h.session
  obtain rfl : i = j := Option.some.inj (hclient.symm.trans hclient'')
  obtain rfl : session = session' := Option.some.inj (hsession.symm.trans hsession')
  obtain rfl : u = uidl := by
    rw [hnumbering] at hu
    exact Option.some.inj (hu.symm.trans (Maildrop.message_number h.numbers hn))
  have hdrop : (s.setDrop context.account_id
      ((s.drops context.account_id).setSession i
        { session with marked := session.marked ++ [u] })).drops context.account_id =
      (s.drops context.account_id).setSession i
        { session with marked := session.marked ++ [u] } := if_pos rfl
  refine ⟨hcontext.trans h.account, h.nodup, ?_, h.states, ?_, ?_, himported.trans h.imported, ?_,
    hfailed.trans h.unfailed⟩
  · rw [hdrop]
    exact h.mailbox
  · refine ⟨i, { session with marked := session.marked ++ [u] }, hclient'.trans hclient, ?_, hopen,
      hnumbering.trans hnumbers.symm, ?_⟩
    · rw [hdrop]
      exact List.getElem?_set_self (List.getElem?_eq_some_iff.1 hsession).1
    · rw [hpending, ← hmarked]
  · rw [hnumbers]
    exact h.numbers
  · have hone : [u].filter (fun uidl => marks context.account.delete_from_server (status uidl)) =
        [u] := List.filter_cons_of_pos hmarks
    rw [hpending, h.pending, List.filter_append, hone]

/-! ## The places of a run -/

/-- What a run in which nothing fails has reached. -/
def AtPlace (context : Context) (messages : List String)
    (status : String → Option RemoteDeleteStatus) (c : Collecting) (s : Store) : Place → Prop
  | .opening => c.context = context ∧ c.counts = .zero ∧ c.pending = [] ∧
    (s.drops context.account_id).messages = messages ∧
    ∀ uidl, _import_state s.db context.account_id uidl = status uidl
  | .head => ∃ seen, messages.take 100 = seen ++ c.todo ∧
    Passing context messages status seen seen c s
  | .looking uidl => ∃ seen, messages.take 100 = seen ++ uidl :: c.todo ∧
    Passing context messages status seen seen c s
  | .acting uidl action => ∃ seen, messages.take 100 = seen ++ uidl :: c.todo ∧
    Passing context messages status seen seen c s ∧
    action = uidl_action (status uidl) context.account.delete_from_server
  | .stored uidl => ∃ seen, messages.take 100 = seen ++ uidl :: c.todo ∧
    Passing context messages status seen (seen ++ [uidl]) c s ∧
    marks context.account.delete_from_server (status uidl) = true
  | .handling _ _ _ => False
  | .quitting => Passing context messages status (messages.take 100) (messages.take 100) c s

/-- The end of a run, before or after the marks are recorded. -/
structure Emptied (context : Context) (messages : List String)
    (status after : String → Option RemoteDeleteStatus) (counts : Counts) (s : Store) : Prop where
  mailbox : (s.drops context.account_id).messages = Window.slide 100
    (fun uidl => !marks context.account.delete_from_server (status uidl)) messages
  states : ∀ uidl, _import_state s.db context.account_id uidl =
    if uidl ∈ messages.take 100 then after uidl else status uidl
  imported : counts.imported = (messages.take 100).countP (fun uidl => (status uidl).isNone)

def Reaches (context : Context) (messages : List String)
    (status : String → Option RemoteDeleteStatus) (s : Store) : Phase → Prop
  | .collecting c => AtPlace context messages status c s c.place
  | .recording c _ => c.context = context ∧ c.pending = (messages.take 100).filter (fun uidl =>
      marks context.account.delete_from_server (status uidl)) ∧
    Emptied context messages status
      (fun uidl => some (passed context.account.delete_from_server (status uidl))) c.counts s
  | .finalizing _ counts => Emptied context messages status
    (fun uidl => some (recorded context.account.delete_from_server (status uidl))) counts s
  | _ => True

theorem AtPlace.undisturbed {c : Collecting} {s s' : Store} {place : Place}
    (h : AtPlace context messages status c s place) (hs : Undisturbed context.account_id s s') :
    AtPlace context messages status c s' place := by
  cases place with
  | opening =>
    obtain ⟨hcontext, hcounts, hpending, hmailbox, hstates⟩ := h
    refine ⟨hcontext, hcounts, hpending, ?_, fun uidl => (hs.2 uidl).trans (hstates uidl)⟩
    rw [hs.1]
    exact hmailbox
  | head =>
    obtain ⟨seen, hwindow, hpassing⟩ := h
    exact ⟨seen, hwindow, hpassing.undisturbed hs⟩
  | looking uidl =>
    obtain ⟨seen, hwindow, hpassing⟩ := h
    exact ⟨seen, hwindow, hpassing.undisturbed hs⟩
  | acting uidl action =>
    obtain ⟨seen, hwindow, hpassing, haction⟩ := h
    exact ⟨seen, hwindow, hpassing.undisturbed hs, haction⟩
  | stored uidl =>
    obtain ⟨seen, hwindow, hpassing, hmarks⟩ := h
    exact ⟨seen, hwindow, hpassing.undisturbed hs, hmarks⟩
  | handling => exact h
  | quitting => exact Passing.undisturbed h hs

theorem Emptied.undisturbed {after : String → Option RemoteDeleteStatus} {counts : Counts}
    {s s' : Store} (h : Emptied context messages status after counts s)
    (hs : Undisturbed context.account_id s s') :
    Emptied context messages status after counts s' where
  mailbox := by
    rw [hs.1]
    exact h.mailbox
  states := fun uidl => (hs.2 uidl).trans (h.states uidl)
  imported := h.imported

theorem Reaches.undisturbed {s s' : Store} {phase : Phase}
    (h : Reaches context messages status s phase) (hs : Undisturbed context.account_id s s') :
    Reaches context messages status s' phase := by
  cases phase with
  | collecting c => exact AtPlace.undisturbed h hs
  | recording c quit_ok =>
    obtain ⟨hcontext, hpending, hemptied⟩ := h
    exact ⟨hcontext, hpending, hemptied.undisturbed hs⟩
  | finalizing job counts => exact Emptied.undisturbed h hs
  | _ => trivial

/-! ## The steps -/

theorem handle_unclean (c : Collecting) (uidl : String) (action : Action) (error : ItemError)
    (s : Store) : (handle c uidl action error s).1.clean = false := by
  cases error <;> rfl

theorem reaches_open {c : Collecting} {numbering : List (String × Nat)}
    (h : AtPlace context messages status c s .opening) (hplace : c.place = .opening)
    (hlists : numbering.map Prod.fst = (s.drops context.account_id).messages) {phase' : Phase}
    {s' : Store} (hopen : open_connection c (some numbering) s = some (phase', s')) :
    Reaches context messages status s' phase' := by
  obtain ⟨rfl, hcounts, hpending, hmailbox, hstates⟩ := h
  dsimp only [open_connection] at hopen
  obtain ⟨d, hd, hpair⟩ := Option.map_eq_some_iff.1 hopen
  obtain ⟨⟨hnodup, hnumbers, _⟩, rfl⟩ := Maildrop.login_eq_some hd
  cases hpair
  rw [hmailbox] at hlists
  unfold opened
  rw [hplace]
  refine ⟨[], ?_, rfl, ?_, ?_, fun uidl => ?_, ?_, hnumbers, ?_, ?_, ?_⟩
  · rw [List.nil_append, ← hlists]
  · rw [← hlists]
    exact hnodup
  · exact (congrArg Maildrop.messages (if_pos rfl)).trans hmailbox
  · rw [if_neg List.not_mem_nil]
    exact hstates uidl
  · refine ⟨_, ⟨numbering, [], none⟩, rfl, ?_, rfl, rfl, hpending.symm⟩
    change (if c.context.account_id = c.context.account_id then _ else _ : Maildrop
      String).sessions[_]? = _
    rw [if_pos rfl]
    exact List.getElem?_concat_length
  · exact congrArg Counts.imported hcounts
  · exact hpending
  · exact congrArg Counts.failed hcounts

theorem undisturbed_db {account_id : String} (s : Store) {db : Db}
    (h : db.imports = s.db.imports) : Undisturbed account_id s { s with db := db } := by
  refine ⟨rfl, fun uidl => ?_⟩
  unfold _import_state
  rw [h]

theorem reaches_heartbeat {now : Time} {sees : Option Bool}
    (h : AtPlace context messages status c s c.place) {phase' : Phase} {s' : Store}
    (hstep : collect (.heartbeat now sees) c s = some (phase', s')) :
    Reaches context messages status s' phase' := by
  dsimp only [collect] at hstep
  split_ifs at hstep with hplace
  rw [hplace] at h
  obtain ⟨seen, hwindow, hpassing⟩ := h
  have hsame := untouched_heartbeat c.job.id now s.db
  split at hstep
  · cases hstep
    trivial
  · rename_i db hbeat
    rw [hbeat] at hsame
    have hbeside : Undisturbed context.account_id s { s with db := db } :=
      undisturbed_db s hsame.1
    split at hstep
    · rename_i htodo
      rw [htodo, List.append_nil] at hwindow
      subst hwindow
      cases hstep
      exact (hpassing.undisturbed hbeside).pass rfl rfl rfl rfl rfl rfl
    · rename_i uidl todo htodo
      rw [htodo] at hwindow
      cases hstep
      exact ⟨seen, hwindow, (hpassing.undisturbed hbeside).pass rfl rfl rfl rfl rfl rfl⟩

/-- The message that the run is at comes once in the listing. -/
theorem not_mem_seen {uidl : String} {todo : List String} (hnodup : messages.Nodup)
    (hwindow : messages.take 100 = seen ++ uidl :: todo) : uidl ∉ seen := by
  have h := hnodup.sublist (List.take_sublist 100 messages)
  rw [hwindow] at h
  exact fun hmem => (List.nodup_append.1 h).2.2 uidl hmem uidl List.mem_cons_self rfl

theorem reaches_look (h : AtPlace context messages status c s c.place) {phase' : Phase}
    {s' : Store} (hstep : collect .look c s = some (phase', s')) :
    Reaches context messages status s' phase' := by
  dsimp only [collect] at hstep
  split at hstep
  · rename_i uidl hplace
    rw [hplace] at h
    obtain ⟨seen, hwindow, hpassing⟩ := h
    have hstate := hpassing.states uidl
    rw [if_neg (not_mem_seen hpassing.nodup hwindow)] at hstate
    rw [hpassing.account, hstate] at hstep
    split_ifs at hstep with hduplicate
    · cases hstep
      have hknown : (status uidl).isSome = true := uidl_action_known (by
        rw [hduplicate]
        exact Action.noConfusion)
      refine ⟨seen ++ [uidl], ?_, ((hpassing.known hknown).unmarked
        (marks_duplicate hduplicate)).pass rfl rfl rfl rfl rfl rfl⟩
      rw [hwindow, List.append_assoc]
      rfl
    · cases hstep
      exact ⟨seen, hwindow, hpassing.pass rfl rfl rfl rfl rfl rfl, rfl⟩
  · cases hstep

/-- A DELE that is answered, for the message that the run is at. -/
theorem reaches_delete_marked {uidl : String} {action : Action} {after : Collecting}
    (hwindow : messages.take 100 = seen ++ uidl :: c.todo)
    (hpassing : Passing context messages status seen (seen ++ [uidl]) c s)
    (hmarks : marks context.account.delete_from_server (status uidl) = true)
    (hafter : after = c.go .head ∨ after = c.duplicated.go .head) {answered : Bool}
    {phase' : Phase} {s' : Store}
    (hstep : delete_marked c uidl action after answered s = some (phase', s'))
    (hclean : phase'.clean = true) : Reaches context messages status s' phase' := by
  unfold delete_marked at hstep
  split at hstep
  · rename_i i n hclient hn
    obtain ⟨d, hd, hpair⟩ := Option.map_eq_some_iff.1 hstep
    dsimp only at hpair
    split_ifs at hpair with hanswered
    · cases hpair
      rw [hpassing.account] at hd ⊢
      have hsame : after.context = c.context ∧ after.client = c.client ∧
          after.numbers = c.numbers ∧ after.pending = c.pending ∧ after.todo = c.todo ∧
          after.counts.imported = c.counts.imported ∧ after.counts.failed = c.counts.failed ∧
          after.place = .head := by
        rcases hafter with rfl | rfl
        · exact ⟨rfl, rfl, rfl, rfl, rfl, rfl, rfl, rfl⟩
        · exact ⟨rfl, rfl, rfl, rfl, rfl, rfl, rfl, rfl⟩
      obtain ⟨hcontext, hcl, hnumbers, hpending, htodo, himported, hfailed, hplace⟩ := hsame
      change AtPlace context messages status { after with pending := after.pending ++ [uidl] } _
        after.place
      rw [hplace]
      refine ⟨seen ++ [uidl], ?_, hpassing.marked hmarks hclient hn hd hcontext hcl hnumbers
        (congrArg (· ++ [uidl]) hpending) himported hfailed⟩
      rw [hwindow, ← htodo, List.append_assoc]
      rfl
    · obtain rfl : phase' = _ := (congrArg Prod.fst hpair).symm
      rw [handle_unclean] at hclean
      cases hclean
  · cases hstep

theorem reaches_dele {answered : Bool} (h : AtPlace context messages status c s c.place)
    {phase' : Phase} {s' : Store} (hstep : collect (.dele answered) c s = some (phase', s'))
    (hclean : phase'.clean = true) : Reaches context messages status s' phase' := by
  dsimp only [collect] at hstep
  split at hstep
  · rename_i uidl hplace
    rw [hplace] at h
    obtain ⟨seen, hwindow, hpassing, haction⟩ := h
    have hknown : (status uidl).isSome = true := uidl_action_known (by
      rw [← haction]
      exact Action.noConfusion)
    exact reaches_delete_marked hwindow (hpassing.known hknown)
      (uidl_action_delete_only haction.symm) (.inr rfl) hstep hclean
  · rename_i uidl hplace
    rw [hplace] at h
    obtain ⟨seen, hwindow, hpassing, hmarks⟩ := h
    exact reaches_delete_marked hwindow hpassing hmarks (.inl rfl) hstep hclean
  · cases hstep

theorem store_states {account : Context} {uidl : String} {parsed : Mime} {message_id : String}
    {now : Time} {db db' : Db} (h : _store account uidl parsed message_id now db = (true, db'))
    (u : String) : _import_state db' account.account_id u =
      if u = uidl then some (if account.account.delete_from_server then .pending else .kept)
      else _import_state db account.account_id u := by
  unfold _store at h
  split at h
  · cases h
  · cases h
    unfold _import_state
    dsimp only
    rw [Table.rows_set]
    by_cases hu : u = uidl
    · rw [if_pos hu, if_pos (congrArg (Prod.mk account.account_id) hu)]
      rfl
    · rw [if_neg hu, if_neg (fun heq => hu (Prod.mk.inj heq).2)]

theorem store_known {account : Context} {uidl : String} {parsed : Mime} {message_id : String}
    {now : Time} {db db' : Db} (h : _store account uidl parsed message_id now db = (false, db')) :
    (_import_state db account.account_id uidl).isSome = true := by
  unfold _store at h
  unfold _import_state
  split at h
  · rename_i row hrow
    rw [hrow]
    rfl
  · cases h

theorem reaches_store {size octets : Nat} {raw : Mime} {message_id : String} {now : Time}
    {marked : Option ItemError} (h : AtPlace context messages status c s c.place)
    {phase' : Phase} {s' : Store}
    (hstep : collect (.store size octets raw message_id now marked) c s = some (phase', s'))
    (hclean : phase'.clean = true) : Reaches context messages status s' phase' := by
  dsimp only [collect] at hstep
  split at hstep
  · rename_i uidl hplace
    rw [hplace] at h
    obtain ⟨seen, hwindow, hpassing, haction⟩ := h
    have hnone := uidl_action_import haction.symm
    have hnext : messages.take 100 = (seen ++ [uidl]) ++ c.todo := by
      rw [hwindow, List.append_assoc]
      rfl
    have hfails : ∀ {error : ItemError} {store : Store},
        handle c uidl .import_ error store = (phase', s') → False := by
      intro error store hpair
      have hunclean := handle_unclean c uidl .import_ error store
      rw [hpair, hclean] at hunclean
      cases hunclean
    split_ifs at hstep
    have hpair := Option.some.inj hstep
    unfold import_item at hpair
    by_cases hsize : size ≤ raw_limit ∧ octets ≤ raw_limit
    · rw [if_pos hsize] at hpair
      split at hpair
      · exact (hfails hpair).elim
      · rename_i parsed hparsed
        rcases hstore : _store c.context uidl parsed message_id now s.db with ⟨_ | _, db⟩
        · -- The message has no row, so the write is not refused.
          have hknown := store_known hstore
          rw [hpassing.account, hpassing.states, if_neg (not_mem_seen hpassing.nodup hwindow),
            hnone] at hknown
          cases hknown
        · rw [hstore] at hpair
          dsimp only at hpair
          split at hpair
          · exact (hfails hpair).elim
          · have hstates := store_states hstore
            rw [hpassing.account] at hstates
            cases hpair
            have hdrop : ({ s with db := db } : Store).drops context.account_id =
                s.drops context.account_id := rfl
            have hstored : ∀ place, Passing context messages status seen (seen ++ [uidl])
                (Collecting.go { c with
                  counts := { c.counts with imported := c.counts.imported + 1 } } place)
                { s with db := db } :=
              fun place => hpassing.fresh hnone hdrop hstates rfl rfl rfl rfl rfl rfl
            change AtPlace context messages status _ _
              (if c.context.account.delete_from_server then Place.stored uidl else Place.head)
            have hdelete : c.context.account.delete_from_server =
                context.account.delete_from_server := by rw [hpassing.account]
            rw [hdelete]
            split_ifs with henabled
            · refine ⟨seen, hwindow, hstored _, ?_⟩
              rw [hnone, marks_none]
              exact henabled
            · refine ⟨seen ++ [uidl], hnext, (hstored _).unmarked ?_⟩
              rw [hnone, marks_none]
              exact Bool.eq_false_of_not_eq_true henabled
    · rw [if_neg hsize] at hpair
      exact (hfails hpair).elim
  · cases hstep

theorem reaches_quit {sees : Option Bool} (h : AtPlace context messages status c s c.place)
    {phase' : Phase} {s' : Store} (hstep : collect (.quit sees) c s = some (phase', s'))
    (hclean : phase'.clean = true) : Reaches context messages status s' phase' := by
  dsimp only [collect] at hstep
  split_ifs at hstep with hplace
  rw [hplace] at h
  change Passing context messages status _ _ c s at h
  cases hstep
  obtain ⟨hquit, _⟩ := Bool.and_eq_true_iff.1 hclean
  obtain rfl : sees = some true := of_decide_eq_true (Bool.and_eq_true_iff.1 hquit).2
  obtain ⟨i, session, hclient, hsession, hopen, _, hmarked⟩ := h.session
  refine ⟨h.account, h.pending, ?_, fun uidl => ?_, h.imported⟩
  · rw [hclient, h.account]
    change (if context.account_id = context.account_id then _ else _ : Maildrop String).messages = _
    rw [if_pos rfl]
    unfold Maildrop.quit
    rw [hsession]
    dsimp only
    rw [hopen, hmarked, h.pending]
    change (s.drops context.account_id).messages.filter _ = _
    rw [h.mailbox]
    refine List.filter_congr (fun uidl _ => Bool.eq_iff_iff.2 ?_)
    rw [decide_eq_true_eq, Bool.or_eq_true, decide_eq_true_eq, List.mem_filter, not_and_or,
      Bool.not_eq_true, Bool.not_eq_true']
  · have hdb := leave_db s c.context.account_id c.client (some true)
    unfold _import_state
    rw [hdb]
    exact h.states uidl

theorem reaches_record_states {now : Time} {quit_ok : Bool}
    (h : Reaches context messages status s (.recording c quit_ok))
    (hclean : (Phase.recording c quit_ok).clean = true) {phase' : Phase} {s' : Store}
    (hstep : turn (.record_states now) (.recording c quit_ok) s = some (phase', s')) :
    Reaches context messages status s' phase' := by
  obtain ⟨hcontext, hpending, hemptied⟩ := h
  obtain ⟨rfl, _⟩ := Bool.and_eq_true_iff.1 hclean
  have hmarked : ∀ uidl, uidl ∈ c.pending ↔ uidl ∈ messages.take 100 ∧
      marks context.account.delete_from_server (status uidl) = true := by
    intro uidl
    rw [hpending, List.mem_filter]
  dsimp only [turn] at hstep
  cases hstep
  refine ⟨hemptied.mailbox, fun uidl => ?_, ?_⟩
  · have hrows : _import_state (if c.pending = [] then s.db else if true = true then
          _set_remote_states c.context.account_id c.pending .deleted none now s.db
        else _set_remote_states c.context.account_id c.pending .failed
          (some "MAIL_EXTERNAL_QUIT_FAILED") now s.db) context.account_id uidl =
        if uidl ∈ c.pending then
          (_import_state s.db context.account_id uidl).map (fun _ => .deleted)
        else _import_state s.db context.account_id uidl := by
      rw [if_pos rfl]
      split_ifs with hnone hin hin
      · rw [hnone] at hin
        cases hin
      · rfl
      · unfold _import_state
        rw [set_remote_states_rows, hcontext, Option.map_map, Option.map_map]
        refine congrArg (Option.map · _) (funext fun row => ?_)
        exact congrArg Import.remote_delete_status (if_pos (by exact ⟨rfl, hin⟩))
      · unfold _import_state
        rw [set_remote_states_rows, Option.map_map]
        refine congrArg (Option.map · _) (funext fun row => ?_)
        exact congrArg Import.remote_delete_status (if_neg (fun h => hin h.2))
    dsimp only
    rw [hrows, hemptied.states]
    unfold recorded
    by_cases hwindow : uidl ∈ messages.take 100
    · rw [if_pos hwindow, if_pos hwindow]
      by_cases hmarks : marks context.account.delete_from_server (status uidl) = true
      · rw [if_pos ((hmarked uidl).2 ⟨hwindow, hmarks⟩), if_pos hmarks]
        rfl
      · rw [if_neg (fun hin => hmarks ((hmarked uidl).1 hin).2), if_neg hmarks]
    · rw [if_neg hwindow, if_neg hwindow, if_neg (fun hin => hwindow ((hmarked uidl).1 hin).1)]
  · rw [← hemptied.imported]
    split_ifs
    · rfl
    · rfl

theorem reaches_collect {act : Act} (h : AtPlace context messages status c s c.place)
    (hlists : act.lists (s.drops context.account_id).messages = true) {phase' : Phase} {s' : Store}
    (hstep : collect act c s = some (phase', s')) (hclean : phase'.clean = true) :
    Reaches context messages status s' phase' := by
  have hopens : ∀ {listing : Option (List (String × Nat))},
      Act.lists (s.drops context.account_id).messages (.open_connection listing) = true →
      c.place = .opening → open_connection c listing s = some (phase', s') →
      Reaches context messages status s' phase' := by
    intro listing hlists hplace hopen
    rw [hplace] at h
    cases listing with
    | none =>
      dsimp only [open_connection] at hopen
      rw [hplace] at hopen
      cases hopen
      cases hclean
    | some numbering => exact reaches_open h hplace (of_decide_eq_true hlists) hopen
  -- An item that fails is counted, and a run that fails does not go on.
  have hhandled : ∀ {c : Collecting} {uidl : String} {action : Action} {error : ItemError},
      some (handle c uidl action error s) = some (phase', s') → False := by
    intro c uidl action error hpair
    have hunclean := handle_unclean c uidl action error s
    rw [Option.some.inj hpair, hclean] at hunclean
    cases hunclean
  have hfailed : ∀ {sees : Option Bool}, some (generic c sees s) = some (phase', s') → False := by
    intro sees hpair
    cases hpair
    cases hclean
  cases act with
  | open_connection listing =>
    dsimp only [collect] at hstep
    split at hstep
    · rename_i hplace
      exact hopens hlists hplace hstep
    · rename_i uidl action hplace
      rw [hplace] at h
      obtain ⟨_, _, hpassing, _⟩ := h
      obtain ⟨i, _, hclient, _⟩ := hpassing.session
      rw [if_neg (by rw [hclient]; exact Option.some_ne_none i)] at hstep
      cases hstep
    · cases hstep
  | heartbeat now sees => exact reaches_heartbeat h hstep
  | look => exact reaches_look h hstep
  | disappear =>
    dsimp only [collect] at hstep
    split at hstep
    · split_ifs at hstep
      cases hstep
      cases hclean
    · cases hstep
  | dele answered => exact reaches_dele h hstep hclean
  | store size octets raw message_id now marked => exact reaches_store h hstep hclean
  | raised error sees =>
    dsimp only [collect] at hstep
    split at hstep
    · exact (hfailed hstep).elim
    · exact (hfailed hstep).elim
    · exact (hhandled hstep).elim
    · exact (hhandled hstep).elim
    · exact (hhandled hstep).elim
    · exact (hfailed hstep).elim
    · cases hstep
  | set_states now =>
    dsimp only [collect] at hstep
    split at hstep
    · rename_i hplace
      rw [hplace] at h
      exact h.elim
    · rename_i hplace
      rw [hplace] at h
      exact h.elim
    · cases hstep
  | quit sees => exact reaches_quit h hstep hclean
  | _ => cases hstep

theorem reaches_turn {act : Act} {phase phase' : Phase} {s s' : Store}
    (h : Reaches context messages status s phase) (hclean : phase.clean = true)
    (hlists : act.lists (s.drops context.account_id).messages = true)
    (hstep : turn act phase s = some (phase', s')) (hclean' : phase'.clean = true) :
    Reaches context messages status s' phase' := by
  cases phase with
  | collecting c =>
    rw [turn_collecting] at hstep
    exact reaches_collect h hlists hstep hclean'
  | recording c quit_ok => cases act with
    | record_states now => exact reaches_record_states h hclean hstep
    | raised error sees =>
      cases hstep
      cases hclean'
    | _ => cases hstep
  | finalizing job counts => cases act with
    | finalize now =>
      cases hstep
      cases hclean'
    | raised error sees =>
      cases hstep
      cases hclean'
    | _ => cases hstep
  | idle => cases hclean
  | enqueuing due => cases hclean
  | enqueued => cases hclean
  | claimed job => cases hclean
  | failing job counts => cases hclean

/-- The run lemma: from the start on, whatever goes on beside. -/
theorem reaches_smooth {phase phase' : Phase} {s s' : Store}
    (h : Reaches context messages status s phase) (hclean : phase.clean = true)
    (hsmooth : Smooth context.account_id phase s phase' s') :
    Reaches context messages status s' phase' ∧ phase'.clean = true := by
  induction hsmooth with
  | here => exact ⟨h, hclean⟩
  | turn act _ hlists hturn hclean' ih => exact ⟨reaches_turn ih.1 ih.2 hlists hturn hclean', hclean'⟩
  | beside _ hbeside ih => exact ⟨ih.1.undisturbed hbeside, ih.2⟩

end Loop

/-- What a run without a failure does: it imports what is new among the first hundred messages, and
takes those of them off the server that it marks. -/
theorem smooth_run {context : Context} {s s' : Store} {counts : Counts}
    (h : SmoothRun context s counts s') :
    Emptied context (s.drops context.account_id).messages
      (_import_state s.db context.account_id)
      (fun uidl => some (recorded context.account.delete_from_server
        (_import_state s.db context.account_id uidl))) counts s' := by
  obtain ⟨job, _, hsmooth⟩ := h
  have hstart : Reaches context (s.drops context.account_id).messages
      (_import_state s.db context.account_id) s (.collecting (.start job context)) :=
    ⟨rfl, rfl, rfl, rfl, fun _ => rfl⟩
  exact (reaches_smooth hstart rfl hsmooth).1

end moaworks.mail_external
