-- The laws of the progress of the collection: a run looks at the first hundred messages of the
-- mailbox, so what is new behind a hundred messages that stay there is never imported.
import MoaWorks.ExternalImportLaws
import MoaWorks.ExternalProgress

namespace moaworks.mail_external

/-- Runs of the account that succeed, one after the other, over a mailbox that only they change. -/
inductive SmoothRuns (account_id : String) (delete_enabled : Bool) : Nat → Store → Store → Prop
  | done (s : Store) : SmoothRuns account_id delete_enabled 0 s s
  | beside {n : Nat} {s s' s'' : Store} (undisturbed : Undisturbed account_id s s')
    (runs : SmoothRuns account_id delete_enabled n s' s'') :
    SmoothRuns account_id delete_enabled n s s''
  | run {n : Nat} {context : Context} {counts : Counts} {s s' s'' : Store}
    (account : context.account_id = account_id)
    (setting : context.account.delete_from_server = delete_enabled)
    (run : SmoothRun context s counts s')
    (runs : SmoothRuns account_id delete_enabled n s' s'') :
    SmoothRuns account_id delete_enabled (n + 1) s s''

/-- The runs of the account leave the message on the server. -/
def stays (db : Db) (account_id : String) (delete_enabled : Bool) (uidl : String) : Bool :=
  !marks delete_enabled (_import_state db account_id uidl)

/-- What stays, stays in the next runs as well. -/
theorem marks_passed {delete_enabled : Bool} {status : Option RemoteDeleteStatus}
    (h : marks delete_enabled status = false) :
    marks delete_enabled (some (passed delete_enabled status)) = false := by
  cases status with
  | none =>
    rw [marks_none] at h
    subst h
    rfl
  | some status => exact h

theorem stays_run {context : Context} {counts : Counts} {s s' : Store}
    (h : SmoothRun context s counts s') {uidl : String}
    (huidl : uidl ∈ (s'.drops context.account_id).messages) :
    stays s'.db context.account_id context.account.delete_from_server uidl =
      stays s.db context.account_id context.account.delete_from_server uidl := by
  have hrun := smooth_run h
  rw [hrun.mailbox, Window.mem_slide_iff] at huidl
  unfold stays
  rw [hrun.states]
  split_ifs with hwindow
  · have hstays := huidl.2.resolve_left (fun hnot => hnot hwindow)
    rw [Bool.not_eq_true'] at hstays
    unfold recorded
    rw [if_neg (by rw [hstays]; decide), marks_passed hstays, hstays]
  · rfl

/-- After the runs a message has no row just when it had none and no run has seen it. -/
theorem unimported_runs {account_id : String} {delete_enabled : Bool} {n : Nat} {s s' : Store}
    (h : SmoothRuns account_id delete_enabled n s s') (uidl : String) :
    _import_state s'.db account_id uidl = none ↔ _import_state s.db account_id uidl = none ∧
      ¬Window.Reached 100 (stays s.db account_id delete_enabled) n (s.drops account_id).messages
        uidl := by
  induction h with
  | done s => exact (and_iff_left id).symm
  | beside hbeside _ ih =>
    rename_i n s s' s'' _
    have hstays : stays s'.db account_id delete_enabled = stays s.db account_id delete_enabled := by
      funext uidl
      unfold stays
      rw [hbeside.2]
    rw [ih, hbeside.1, hbeside.2, hstays]
  | run haccount hsetting hrun _ ih =>
    rename_i n context counts s s' s'' _
    subst haccount
    subst hsetting
    have hemptied := smooth_run hrun
    have hlater := Window.reached_congr (k := 100) n (a := uidl) (fun v hv => stays_run hrun hv)
    rw [ih, hlater, hemptied.states, hemptied.mailbox, Window.reached_succ, not_or]
    split_ifs with hwindow
    · constructor
      · rintro ⟨hrow, _⟩
        cases hrow
      · rintro ⟨_, hout, _⟩
        exact (hout hwindow).elim
    · exact ⟨fun hnone => ⟨hnone.1, hwindow, hnone.2⟩, fun hnone => ⟨hnone.1, hnone.2.2⟩⟩

/-- A run in which nothing fails imports as many messages as it could just when nothing new is
behind the first hundred, or all of the first hundred are new. As many such runs as there are
messages import the whole mailbox just when in front of each message without a row fewer than a
hundred stay: those without a mark for deletion, and all when messages are kept. -/
theorem collection_progresses_iff (s : Store) :
    (∀ context counts s', SmoothRun context s counts s' →
      (min 100 ((s.drops context.account_id).messages.countP (fun uidl =>
          (_import_state s.db context.account_id uidl).isNone)) ≤ counts.imported ↔
        (∀ uidl ∈ (s.drops context.account_id).messages.drop 100,
          (_import_state s.db context.account_id uidl).isNone = false) ∨
        ∀ uidl ∈ (s.drops context.account_id).messages.take 100,
          (_import_state s.db context.account_id uidl).isNone = true)) ∧
    ∀ account_id delete_enabled n s', SmoothRuns account_id delete_enabled n s s' →
      (s.drops account_id).messages.Nodup → (s.drops account_id).messages.length ≤ n →
      ((∀ uidl ∈ (s.drops account_id).messages,
          (_import_state s'.db account_id uidl).isSome = true) ↔
        ∀ uidl ∈ (s.drops account_id).messages,
          (_import_state s.db account_id uidl).isSome = true ∨
          (Window.before (s.drops account_id).messages uidl).countP
            (stays s.db account_id delete_enabled) < 100) := by
  constructor
  · intro context counts s' hrun
    rw [(smooth_run hrun).imported]
    exact Window.shows_enough_iff _ 100 _
  · intro account_id delete_enabled n s' hruns hnodup hlength
    refine forall₂_congr (fun uidl huidl => ?_)
    rw [← Window.reached_iff hnodup huidl hlength, ← Option.ne_none_iff_isSome,
      ← Option.ne_none_iff_isSome, ne_eq, unimported_runs hruns uidl, not_and_or, not_not]

/-! ## Two mailboxes -/

/-- The steps of a run in which nothing fails. -/
def smoothly (account_id : String) : List Act → Phase × Store → Option (Phase × Store)
  | [], reached => some reached
  | act :: acts, (phase, s) =>
    if act.lists (s.drops account_id).messages then
      match turn act phase s with
      | some (phase', s') =>
        if phase'.clean then smoothly account_id acts (phase', s') else none
      | none => none
    else none

theorem smooth_smoothly {account_id : String} {phase phase' : Phase} {s s' : Store}
    (h : Smooth account_id phase s phase' s') {acts : List Act} {reached : Phase × Store}
    (hacts : smoothly account_id acts (phase', s') = some reached) :
    Smooth account_id phase s reached.1 reached.2 := by
  induction acts generalizing phase' s' with
  | nil =>
    cases hacts
    exact h
  | cons act acts ih =>
    unfold smoothly at hacts
    split_ifs at hacts with hlists
    split at hacts
    · rename_i phase'' s'' hturn
      split_ifs at hacts with hclean
      exact ih (.turn act h hlists hturn hclean) hacts
    · cases hacts

def claimedJob : ClaimedJob := ⟨"job", claimedRow 1 (queuedJob "pop" "acme" "ana" .manual 0)⟩

def keepingAccount : Account where
  company_id := "acme"
  user_id := "ana"
  owner_mail_account_id := "account"
  display_name := "Old mail"
  connection := ⟨"pop.example.com", 995, .ssl, "ana", "secret"⟩
  target_folder_id := none
  delete_from_server := false
  enabled := true
  connection_status := .success
  last_test_at := some 0
  next_collect_at := none
  last_collect_at := none
  version := 1
  deleted_at := none

def keepingContext : Context := ⟨"pop", keepingAccount, ⟨"ana@acme.com", "Ana"⟩⟩

/-- The account with the messages of its mailbox and those that have been imported and kept. -/
def mailbox (messages imported : List String) : Store where
  db := { anasDb with
    accounts := Table.empty.set "pop" keepingAccount
    jobs := Table.empty.set "job" claimedJob.row
    imports := imported.foldl (fun imports uidl =>
      imports.set ("pop", uidl) ⟨"mail", .kept, none, 0, none⟩) .empty }
  drops := fun _ => ⟨messages, []⟩

theorem smoothRun_mailbox {messages imported : List String} {acts : List Act} {counts : Counts}
    (h : ((smoothly "pop" acts (.collecting (.start claimedJob keepingContext),
      mailbox messages imported)).map Prod.fst) = some (.finalizing claimedJob counts)) :
    ∃ s', SmoothRun keepingContext (mailbox messages imported) counts s' := by
  obtain ⟨⟨phase, s'⟩, hreached, rfl⟩ := Option.map_eq_some_iff.1 h
  exact ⟨s', claimedJob, rfl, smooth_smoothly .here hreached⟩

/-- The run that finds one new message. -/
def importing : List Act :=
  [.open_connection (some [("uidl", 1)]), .heartbeat 2 none, .look,
    .store 100 100 letter "mail" 3 none, .heartbeat 4 none, .quit (some true), .record_states 5]

theorem one_message_is_imported :
    ∃ s', SmoothRuns "pop" false 1 (mailbox ["uidl"] []) s' ∧
      (_import_state s'.db "pop" "uidl").isSome = true := by
  have hacts : ((smoothly "pop" importing (.collecting (.start claimedJob keepingContext),
      mailbox ["uidl"] [])).map Prod.fst) = some (.finalizing claimedJob ⟨1, 1, 0, 0, 0⟩) := by
    decide +kernel
  obtain ⟨s', hrun⟩ := smoothRun_mailbox hacts
  have hruns : SmoothRuns "pop" false 1 (mailbox ["uidl"] []) s' := .run rfl rfl hrun (.done s')
  have hall := ((collection_progresses_iff _).2 "pop" false 1 s' hruns (by decide) (by decide)).2
    (by decide)
  exact ⟨s', hruns, hall "uidl" List.mem_cons_self⟩

def uidls : List String := (List.range 101).map toString

/-- The run that finds the first hundred messages imported. -/
def idling : List Act :=
  .open_connection (some (uidls.zipIdx 1)) ::
    (List.replicate 100 [.heartbeat 2 none, .look]).flatten ++
    [.heartbeat 3 none, .quit (some true), .record_states 4]

/-- A hundred messages are kept on the server, and the new one behind them is not imported. -/
theorem a_message_behind_a_hundred_is_not_imported :
    ∃ context s counts s', SmoothRun context s counts s' ∧
      counts.imported < min 100 ((s.drops context.account_id).messages.countP (fun uidl =>
        (_import_state s.db context.account_id uidl).isNone)) := by
  have hacts : ((smoothly "pop" idling (.collecting (.start claimedJob keepingContext),
      mailbox uidls (uidls.take 100))).map Prod.fst) =
        some (.finalizing claimedJob ⟨100, 0, 100, 0, 0⟩) := by
    decide +kernel
  obtain ⟨s', hrun⟩ := smoothRun_mailbox hacts
  exact ⟨_, _, _, s', hrun, by decide +kernel⟩

end moaworks.mail_external
