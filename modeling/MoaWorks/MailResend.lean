-- The law of re-transmission: what was sent, or may have been sent, goes out
-- again only when a person asked for it. A `delayed` notice breaks it.
import MoaWorks.MailQueueRuns

namespace moaworks.mail_queue

/-! ## What the law says of a log -/

/-- A person asked for the row to be sent again: the admin, or its sender. -/
def Event.asks (q : String) : Event → Prop
  | .retried k _ => k = q
  | .ownerRetried rows => q ∈ rows
  | _ => False

/-- The admin asked, and confirmed the risk of a duplicate. -/
def Event.confirms (q : String) : Event → Prop
  | .retried k confirm => k = q ∧ confirm = true
  | _ => False

/-- A notice that the mail failed for good. -/
def Event.failedNotice (q : String) : Event → Prop
  | .noticed k action _ => k = q ∧ terminal_status action = .failed
  | _ => False

def Event.finalizedAs (q : String) (result : ResultStatus) : Event → Prop
  | .finalized job a _ => job.queue_id = q ∧ a.result = result
  | _ => False

/-- Nothing is left to send: an attempt was accepted, or a notice came for a
row that did not wait for a worker. -/
def Event.settles (q : String) : Event → Prop
  | .finalized job a _ => job.queue_id = q ∧ a.result = .sent
  | .noticed k _ found => k = q ∧ waiting found = false
  | _ => False

def asked (q : String) (since : List Event) : Prop := ∃ e ∈ since, e.asks q

/-- A person asked, and knew: the retry carried the confirmation, or a notice
of failure had come before it. -/
def askedKnowing (q : String) (since : List Event) : Prop :=
  ∃ before e after, since = before ++ e :: after ∧ e.asks q ∧
    (e.confirms q ∨ ∃ n ∈ before, n.failedNotice q)

/-- No silent re-transmission: each claim of a row that was settled, or whose
result was unknown, has its retry in between. -/
structure NoSilentResend (log : List Event) : Prop where
  settled : ∀ before job after, log = before ++ .claimed job :: after →
    ∀ since, History.Since (Event.settles job.queue_id) before since → asked job.queue_id since
  unknown : ∀ before job after, log = before ++ .claimed job :: after →
    ∀ since, History.Since (Event.finalizedAs job.queue_id .result_unknown) before since →
      askedKnowing job.queue_id since

/-! ## Notices -/

theorem terminal_status_cases (action : String) :
    terminal_status action = .failed ∨ terminal_status action = .sent ∨
      (terminal_status action = .retry_pending ∧ action = "delayed") := by
  unfold terminal_status
  split_ifs with h1 h2 h3 h4 h5
  · exact Or.inl rfl
  · exact Or.inl rfl
  · exact Or.inr (Or.inr ⟨rfl, h3⟩)
  · exact Or.inr (Or.inl rfl)
  · exact Or.inr (Or.inl rfl)
  · exact Or.inl rfl

/-- A `delayed` notice comes only for a row that waits already. -/
def delayKeepsWaiting (w : World) (a : Action) : Prop :=
  match a.call with
  | .record feedback _ => feedback.action = "delayed" →
      ∀ row, w.db.queue.rows feedback.queue_id = some row → waiting row.status = true
  | _ => True

/-- The same, of the event of a step. -/
def Event.keepsWaiting : Event → Prop
  | .noticed _ action found => action = "delayed" → waiting found = true
  | _ => True

variable (digest8 : String → Nat)

theorem keepsWaiting_of_step {w w' : World} {a : Action} {e : Event}
    (ha : delayKeepsWaiting w a) (h : step digest8 w a = some w')
    (hl : w'.log = w.log ++ [e]) : e.keepsWaiting := by
  unfold step at h
  split at h
  · rw [Option.map_eq_some_iff] at h
    obtain ⟨⟨db', e'⟩, hp, rfl⟩ := h
    rw [List.append_cancel_left_eq, List.cons.injEq] at hl
    obtain ⟨rfl, _⟩ := hl
    obtain ⟨call, now, clock⟩ := a
    cases e' with
    | noticed q action found =>
      cases call with
      | record feedback key =>
        simp only [perform] at hp
        split at hp
        · rename_i hrec hrow
          simp only [Option.some.injEq, Prod.mk.injEq, Event.noticed.injEq] at hp
          obtain ⟨_, rfl, rfl, rfl⟩ := hp
          exact fun hd => ha hd _ hrow
        · simp at hp
      | _ =>
        simp only [perform] at hp
        repeat' split at hp
        all_goals simp at hp
    | _ => trivial
  · simp at h

/-! ## Rows that stay settled -/

section Row

variable {log : List Event} {clock : Time} {q : String} {e : Event}
  {row : QueueRow} {r r' : Option QueueRow}

def settledRow (row : QueueRow) : Prop := row.status = .sent ∨ row.status = .failed

theorem RowStep.stays_settled (h : RowStep log clock q e (some row) r') (hk : e.keepsWaiting)
    (hs : settledRow row) : (∃ row', r' = some row' ∧ settledRow row') ∨ e.asks q := by
  unfold settledRow at hs
  cases h with
  | other => exact Or.inl ⟨row, rfl, hs⟩
  | claimed _ worker token now hw => rcases hs with hs | hs <;> simp [waiting, hs] at hw
  | expired => exact Or.inl ⟨row, rfl, hs⟩
  | renewed _ job worker lease now started hq hj ho =>
    rcases hs with hs | hs <;> simp [owns, hs] at ho
  | finalized _ job worker result status recover now finished hq hj hr ho =>
    rcases hs with hs | hs <;> cases recover <;> simp [owns, ownsExpired, hs] at ho
  | deferred _ job worker code next now hq hj ho =>
    rcases hs with hs | hs <;> simp [owns, hs] at ho
  | retried => exact Or.inr rfl
  | ownerRetried _ rows now hq => exact Or.inr hq
  | noticed _ feedback now =>
    refine Or.inl ⟨_, rfl, ?_⟩
    rcases terminal_status_cases feedback.action with hf | hf | ⟨hf, hd⟩
    · exact Or.inr hf
    · exact Or.inl hf
    · have hw := hk hd
      rcases hs with hs | hs <;> simp [waiting, hs] at hw

/-- An event that settles a row leaves it settled. -/
theorem RowStep.settled_after (h : RowStep log clock q e r r') (hk : e.keepsWaiting)
    (he : e.settles q) : ∃ row', r' = some row' ∧ settledRow row' := by
  cases h with
  | other hn => cases e <;> simp [Event.settles, Event.about] at he hn <;> exact absurd he.1 hn
  | finalized row job worker result status recover now finished hq hj hr ho =>
    have hsent : result.status = .sent := he.2
    rw [hsent] at hr
    cases hr
    exact ⟨_, rfl, Or.inl rfl⟩
  | noticed row feedback now =>
    refine ⟨_, rfl, ?_⟩
    rcases terminal_status_cases feedback.action with hf | hf | ⟨hf, hd⟩
    · exact Or.inr hf
    · exact Or.inl hf
    · have hw : waiting row.status = true := hk hd
      rw [he.2] at hw
      cases hw
  | _ => simp [Event.settles] at he

/-! ## Rows whose result stays unknown -/

/-- The row may have been sent: the result is unknown, a notice said that it
arrived, or a notice of failure came since. -/
def doubtfulRow (q : String) (since : List Event) (row : QueueRow) : Prop :=
  row.status = .result_unknown ∨ row.status = .sent ∨
    (row.status = .failed ∧ ∃ n ∈ since, n.failedNotice q)

theorem RowStep.stays_doubtful {since : List Event} (h : RowStep log clock q e (some row) r')
    (hk : e.keepsWaiting) (hs : doubtfulRow q since row) :
    (∃ row', r' = some row' ∧ doubtfulRow q (since ++ [e]) row') ∨
      (e.asks q ∧ (e.confirms q ∨ ∃ n ∈ since, n.failedNotice q)) := by
  have hsame : doubtfulRow q (since ++ [e]) row := by
    rcases hs with hs | hs | ⟨hs, n, hn, hf⟩
    · exact Or.inl hs
    · exact Or.inr (Or.inl hs)
    · exact Or.inr (Or.inr ⟨hs, n, by simp [hn], hf⟩)
  have hstatus : row.status = .result_unknown ∨ row.status = .sent ∨ row.status = .failed := by
    rcases hs with hs | hs | hs
    · exact Or.inl hs
    · exact Or.inr (Or.inl hs)
    · exact Or.inr (Or.inr hs.1)
  cases h with
  | other => exact Or.inl ⟨row, rfl, hsame⟩
  | claimed _ worker token now hw => rcases hstatus with hs | hs | hs <;> simp [waiting, hs] at hw
  | expired => exact Or.inl ⟨row, rfl, hsame⟩
  | renewed _ job worker lease now started hq hj ho =>
    rcases hstatus with hs | hs | hs <;> simp [owns, hs] at ho
  | finalized _ job worker result status recover now finished hq hj hr ho =>
    rcases hstatus with hs | hs | hs <;> cases recover <;> simp [owns, ownsExpired, hs] at ho
  | deferred _ job worker code next now hq hj ho =>
    rcases hstatus with hs | hs | hs <;> simp [owns, hs] at ho
  | retried _ confirm now hr hu =>
    refine Or.inr ⟨rfl, ?_⟩
    rcases hs with hs | hs | ⟨_, hn⟩
    · exact Or.inl ⟨rfl, hu hs⟩
    · simp [retryable, hs] at hr
    · exact Or.inr hn
  | ownerRetried _ rows now hq hst =>
    refine Or.inr ⟨hq, ?_⟩
    rcases hs with hs | hs | ⟨_, hn⟩
    · simp [hs] at hst
    · simp [hs] at hst
    · exact Or.inr hn
  | noticed _ feedback now =>
    refine Or.inl ⟨_, rfl, ?_⟩
    rcases terminal_status_cases feedback.action with hf | hf | ⟨hf, hd⟩
    · exact Or.inr (Or.inr ⟨hf, .noticed q feedback.action row.status, by simp, rfl, hf⟩)
    · exact Or.inr (Or.inl hf)
    · have hw := hk hd
      rcases hstatus with hs | hs | hs <;> simp [waiting, hs] at hw

theorem RowStep.doubtful_after (h : RowStep log clock q e r r')
    (he : e.finalizedAs q .result_unknown) :
    ∃ row', r' = some row' ∧ doubtfulRow q [] row' := by
  cases h with
  | other hn =>
    cases e <;> simp [Event.finalizedAs, Event.about] at he hn
    exact absurd he.1 hn
  | finalized row job worker result status recover now finished hq hj hr ho =>
    have hunknown : result.status = .result_unknown := he.2
    rw [hunknown] at hr
    cases hr
    exact ⟨_, rfl, Or.inl rfl⟩
  | _ => simp [Event.finalizedAs] at he

end Row

/-! ## The law over runs -/

/-- The law so far, and the rows that it still binds. -/
structure Quiet (w : World) : Prop where
  law : NoSilentResend w.log
  settled : ∀ q since, History.Since (Event.settles q) w.log since →
    asked q since ∨ ∃ row, w.db.queue.rows q = some row ∧ settledRow row
  doubtful : ∀ q since, History.Since (Event.finalizedAs q .result_unknown) w.log since →
    askedKnowing q since ∨ ∃ row, w.db.queue.rows q = some row ∧ doubtfulRow q since row

theorem asked_snoc {q : String} {since : List Event} (e : Event) (h : asked q since) :
    asked q (since ++ [e]) := by
  obtain ⟨x, hx, ha⟩ := h
  exact ⟨x, by simp [hx], ha⟩

theorem askedKnowing_snoc {q : String} {since : List Event} (e : Event)
    (h : askedKnowing q since) : askedKnowing q (since ++ [e]) := by
  obtain ⟨b, x, a, rfl, ha⟩ := h
  exact ⟨b, x, a ++ [e], by simp, ha⟩

/-- A row that is claimed waited for it. -/
theorem Does.claimed_waits {db db' : Db} {log : List Event} {clock : Time} {job : Job}
    (h : Does db log clock db' (.claimed job)) :
    ∃ row, db.queue.rows job.queue_id = some row ∧ waiting row.status = true := by
  have hrow := h.rows job.queue_id
  generalize db.queue.rows job.queue_id = r at hrow ⊢
  generalize db'.queue.rows job.queue_id = r' at hrow
  generalize hq : job.queue_id = q at hrow
  cases hrow with
  | other hn => exact absurd hq hn
  | claimed row worker token now hw => exact ⟨row, rfl, hw⟩

namespace Quiet

section Step

variable {w w' : World} {clock : Time} {e : Event} (i : Quiet w)
  (d : Does w.db w.log clock w'.db e) (hl : w'.log = w.log ++ [e])
include i d hl

theorem law_step : NoSilentResend w'.log := by
  rw [hl]
  constructor
  · intro before job after h since hs
    rcases History.append_singleton_eq_append_cons h with ⟨_, rfl, rfl⟩ | ⟨b', _, hb⟩
    · obtain ⟨row, hr, hw⟩ := d.claimed_waits
      rcases i.settled _ since hs with ha | ⟨row', hr', hst⟩
      · exact ha
      · rw [hr, Option.some.injEq] at hr'
        subst hr'
        rcases hst with hst | hst <;> simp [waiting, hst] at hw
    · exact i.law.settled before job b' hb since hs
  · intro before job after h since hs
    rcases History.append_singleton_eq_append_cons h with ⟨_, rfl, rfl⟩ | ⟨b', _, hb⟩
    · obtain ⟨row, hr, hw⟩ := d.claimed_waits
      rcases i.doubtful _ since hs with ha | ⟨row', hr', hst⟩
      · exact ha
      · rw [hr, Option.some.injEq] at hr'
        subst hr'
        rcases hst with hst | hst | hst <;> simp [waiting, hst] at hw
    · exact i.law.unknown before job b' hb since hs

theorem settled_step (hk : e.keepsWaiting) (q : String) (since : List Event)
    (hs : History.Since (Event.settles q) w'.log since) :
    asked q since ∨ ∃ row, w'.db.queue.rows q = some row ∧ settledRow row := by
  rw [hl, History.since_snoc] at hs
  rcases hs with ⟨he, rfl⟩ | ⟨b, rfl, hb⟩
  · exact Or.inr ((d.rows q).settled_after hk he)
  · rcases i.settled q b hb with ha | ⟨row, hr, hst⟩
    · exact Or.inl (asked_snoc e ha)
    · have hrow := d.rows q
      rw [hr] at hrow
      rcases hrow.stays_settled hk hst with hr' | ha
      · exact Or.inr hr'
      · exact Or.inl ⟨e, by simp, ha⟩

theorem doubtful_step (hk : e.keepsWaiting) (q : String) (since : List Event)
    (hs : History.Since (Event.finalizedAs q .result_unknown) w'.log since) :
    askedKnowing q since ∨ ∃ row, w'.db.queue.rows q = some row ∧ doubtfulRow q since row := by
  rw [hl, History.since_snoc] at hs
  rcases hs with ⟨he, rfl⟩ | ⟨b, rfl, hb⟩
  · exact Or.inr ((d.rows q).doubtful_after he)
  · rcases i.doubtful q b hb with ha | ⟨row, hr, hst⟩
    · exact Or.inl (askedKnowing_snoc e ha)
    · have hrow := d.rows q
      rw [hr] at hrow
      rcases hrow.stays_doubtful hk hst with hr' | ha
      · exact Or.inr hr'
      · exact Or.inl ⟨b, e, [], rfl, ha⟩

theorem step (hk : e.keepsWaiting) : Quiet w' :=
  ⟨i.law_step d hl, i.settled_step d hl hk, i.doubtful_step d hl hk⟩

end Step

theorem start {w : World} (hl : w.log = []) : Quiet w := by
  refine ⟨⟨?_, ?_⟩, ?_, ?_⟩
  · intro before job after h
    simp [hl] at h
  · intro before job after h
    simp [hl] at h
  · intro q since h
    rw [hl] at h
    exact absurd h (History.not_since_nil _ _)
  · intro q since h
    rw [hl] at h
    exact absurd h (History.not_since_nil _ _)

end Quiet

/-- In every run in which each `delayed` notice comes for a row that waits
already, nothing is sent again without a person asking for it. -/
theorem nothing_is_sent_again_unasked {w : World}
    (h : (machine digest8).Reach delayKeepsWaiting w) : NoSilentResend w.log := by
  have hq : Quiet w := by
    apply h.invariant
    · intro s hs
      exact Quiet.start hs.2
    · intro s a s' _ hi ha hstep
      obtain ⟨e, d, hl, _⟩ := step_does digest8 hstep
      exact hi.step d hl (keepsWaiting_of_step digest8 ha hstep hl)
  exact hq.law

/-- The first claim of the mail `m` in the runs below. -/
def firstJob : Job where
  queue_id := "q"
  attempt_count := 0
  company_id := "c"
  provider_config_id := "p"
  mail_id := "m"
  recipient_id := "r"
  status := .queued
  worker_id := some "w"
  claim_token := some "t1"
  claimed_at := some 1
  send_started_at := none

/-- A mail is claimed and finalized with `result`, and a notice comes. -/
def noticeRun (result : ResultStatus) (action : String) : List Action :=
  [⟨.enqueue "q" "c" "p" "m" "r" false none, 0, 0⟩,
   ⟨.claim_next "w" "t1" ∅ (some "q"), 1, 1⟩,
   ⟨.finalize_claim "w" firstJob ⟨result, none, none, none⟩ 2, 2, 2⟩,
   ⟨.record ⟨"q", action, "4.4.1", "delayed by the next host", "digest"⟩ "key", 3, 3⟩]

/-- The notice of failure lets the admin retry without the confirmation. -/
def failedRun : List Action :=
  noticeRun .result_unknown "failed" ++
    [⟨.retry "c" "q" false, 4, 4⟩, ⟨.claim_next "w" "t2" ∅ (some "q"), 5, 5⟩]

def failedEnd : World :=
  ((machine (fun _ => 0)).run emptyWorld failedRun).get (by decide)

theorem the_failed_mail_goes_out_again_when_asked :
    failedEnd.log.length = 6 ∧ NoSilentResend failedEnd.log :=
  ⟨by decide, nothing_is_sent_again_unasked (fun _ => 0)
    ((Machine.Reach.start (emptyWorld_start _)).run
      (by simp [failedRun, noticeRun, delayKeepsWaiting]) (Option.some_get _).symm)⟩

/-- The mail was accepted, the next host reports a delay, and the worker
claims the row once more. -/
def delayedRun : List Action :=
  noticeRun .sent "delayed" ++ [⟨.claim_next "w" "t2" ∅ (some "q"), 4, 4⟩]

def delayedEnd : World :=
  ((machine (fun _ => 0)).run emptyWorld delayedRun).get (by decide)

theorem a_delayed_notice_sends_the_mail_twice :
    (machine (fun _ => 0)).Reachable delayedEnd ∧ ¬ NoSilentResend delayedEnd.log := by
  refine ⟨Machine.reachable_of_run (emptyWorld_start _) (Option.some_get _).symm,
    fun law => ?_⟩
  have hlast : delayedEnd.log = delayedEnd.log.take 4 ++
      [.claimed { firstJob with
        attempt_count := 1, status := .retry_pending,
        claim_token := some "t2", claimed_at := some 4 }] := by decide
  have hsince : History.Since (Event.settles "q") (delayedEnd.log.take 4)
      [.noticed "q" "delayed" .sent] :=
    ⟨delayedEnd.log.take 2, .finalized firstJob
      (attemptOf firstJob ⟨.sent, none, none, none⟩ 2 2) false, ⟨rfl, rfl⟩, by decide⟩
  obtain ⟨e, he, ha⟩ := law.settled _ _ _ hlast _ hsince
  rw [List.mem_singleton] at he
  subst he
  exact ha

end moaworks.mail_queue
