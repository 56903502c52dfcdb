-- The laws of the attempt ledger and of claim tokens: attempts of a row are
-- numbered from 1 without gaps, a token writes at most one of them, and an
-- old token changes nothing.
import MoaWorks.MailQueueRuns

namespace moaworks.mail_queue

variable {row : QueueRow} {job : Job} {token : String} {log : List Event} {db db' : Db}

/-! ## Rows held under a token -/

/-- The row is claimed, under this token. -/
def heldBy (row : QueueRow) (token : String) : Prop :=
  row.status = .processing ∧ row.claim_token = some token

theorem owns_heldBy {worker : String} {clock : Time} (h : owns row worker job clock = true) :
    ∃ token, job.claim_token = some token ∧ heldBy row token ∧
      ∃ lease, row.lease_expires_at = some lease ∧ clock < lease := by
  simp only [owns, Bool.and_eq_true, decide_eq_true_eq, sqlEq_iff, Option.any_eq_true] at h
  obtain ⟨⟨⟨_, token, ht, hj⟩, hp⟩, lease, hl, hlt⟩ := h
  exact ⟨token, hj, ⟨hp, ht⟩, lease, hl, hlt⟩

theorem ownsExpired_heldBy {clock : Time} (h : ownsExpired row job clock = true)
    (hj : job.claim_token = some token) :
    heldBy row token ∧ ∀ lease, row.lease_expires_at = some lease → lease ≤ clock := by
  simp only [ownsExpired, Bool.and_eq_true, decide_eq_true_eq, Option.all_eq_true] at h
  obtain ⟨⟨⟨_, ht⟩, hl⟩, hp⟩ := h
  exact ⟨⟨hp, by rw [ht, hj]⟩, hl⟩

theorem toQueue_ne_processing {s : ResultStatus} {status : QueueStatus}
    (h : s.toQueue = some status) : status ≠ .processing := by
  cases s <;> simp only [ResultStatus.toQueue, Option.some.injEq, reduceCtorEq] at h <;>
    subst h <;> decide

theorem terminal_status_ne_processing (action : String) :
    terminal_status action ≠ .processing := by
  unfold terminal_status
  split_ifs <;> decide

/-- A row that is held after a step was held under the token before it, with
the same count and not finalized, or the step claimed it under a fresh token. -/
theorem RowStep.held {clock : Time} {q : String} {e : Event} {r : Option QueueRow} {row' : QueueRow}
    (h : RowStep log clock q e r (some row')) (hh : heldBy row' token) :
    (∃ row, r = some row ∧ heldBy row token ∧ row'.attempt_count = row.attempt_count ∧
      ∀ job a recover, e = .finalized job a recover → job.queue_id ≠ q) ∨
    (∃ job, e = .claimed job ∧ job.queue_id = q ∧ job.claim_token = some token ∧
      job.attempt_count = row'.attempt_count ∧ ¬ issued log token) := by
  obtain ⟨hp, ht⟩ := hh
  cases h with
  | other hn =>
    refine Or.inl ⟨row', rfl, ⟨hp, ht⟩, rfl, fun job a recover he hq => hn ?_⟩
    rw [he]
    exact hq
  | enqueued company provider mail recipient blocked =>
    unfold newRow at hp
    cases blocked <;> simp at hp
  | claimed row worker tok now hw hd hf =>
    simp only [claimRow, Option.some.injEq] at ht
    subst ht
    exact Or.inr ⟨_, rfl, rfl, rfl, rfl, hf⟩
  | expired row => exact Or.inl ⟨_, rfl, ⟨hp, ht⟩, rfl, by simp⟩
  | renewed row => exact Or.inl ⟨row, rfl, ⟨hp, ht⟩, rfl, by simp⟩
  | finalized row job worker result status recover now finished hq hj hs ho =>
    exact absurd hp (toQueue_ne_processing hs)
  | deferred => simp [deferRow] at hp
  | retried => simp at hp
  | ownerRetried => simp at hp
  | noticed => exact absurd hp (terminal_status_ne_processing _)

/-- A claimed row has a token. -/
theorem RowStep.tokened {clock : Time} {q : String} {e : Event} {r : Option QueueRow}
    {row' : QueueRow} (h : RowStep log clock q e r (some row'))
    (hr : ∀ row, r = some row → row.status = .processing → row.claim_token.isSome)
    (hp : row'.status = .processing) : row'.claim_token.isSome := by
  cases h with
  | other => exact hr row' rfl hp
  | enqueued company provider mail recipient blocked =>
    unfold newRow at hp
    cases blocked <;> simp at hp
  | claimed => rfl
  | expired row hs => exact hr _ rfl hs
  | renewed row => exact hr row rfl hp
  | finalized row job worker result status recover now finished hq hj hs =>
    exact absurd hp (toQueue_ne_processing hs)
  | deferred => simp [deferRow] at hp
  | retried => simp at hp
  | ownerRetried => simp at hp
  | noticed => exact absurd hp (terminal_status_ne_processing _)

/-! ## Attempt numbers -/

/-- The attempt numbers that the ledger holds for a queue row, oldest first. -/
def numbers (db : Db) (q : String) : List Nat :=
  (db.attempts.filter (fun a => decide (a.queue_id = q))).map (·.attempt_number)

/-- The attempts that a row counts; a key without a row counts none. -/
def counted (r : Option QueueRow) : Nat := (r.map (·.attempt_count)).getD 0

/-- A step keeps the count of a row, or it finalizes a claim of the row and
counts one attempt more than the copy that the worker holds. -/
theorem RowStep.counts {clock : Time} {q : String} {e : Event} {r r' : Option QueueRow}
    (h : RowStep log clock q e r r') :
    (counted r' = counted r ∧ ∀ job a recover, e = .finalized job a recover → job.queue_id ≠ q) ∨
    (∃ row job a recover worker, e = .finalized job a recover ∧ r = some row ∧
      job.queue_id = q ∧ a.queue_id = q ∧ a.attempt_number = job.attempt_count + 1 ∧
      counted r' = job.attempt_count + 1 ∧ handedOut log job ∧
      (if recover then ownsExpired row job clock else owns row worker job clock) = true) := by
  cases h with
  | other hn =>
    refine Or.inl ⟨rfl, fun job a recover he hq => hn ?_⟩
    rw [he]
    exact hq
  | finalized row job worker result status recover now finished hq hj hs ho =>
    exact Or.inr ⟨row, job, _, recover, worker, rfl, rfl, hq, hq, rfl, rfl, hj, ho⟩
  | enqueued => exact Or.inl ⟨rfl, by simp⟩
  | claimed => exact Or.inl ⟨rfl, by simp⟩
  | expired => exact Or.inl ⟨rfl, by simp⟩
  | renewed => exact Or.inl ⟨rfl, by simp⟩
  | deferred => exact Or.inl ⟨rfl, by simp⟩
  | retried => exact Or.inl ⟨rfl, by simp⟩
  | ownerRetried => exact Or.inl ⟨rfl, by simp⟩
  | noticed => exact Or.inl ⟨rfl, by simp⟩

/-- An attempt row is about the queue row of its claim. -/
theorem Does.attempt_queue {clock : Time} {a : AttemptRow} {recover : Bool}
    (h : Does db log clock db' (.finalized job a recover)) : a.queue_id = job.queue_id := by
  have hrow := h.rows job.queue_id
  generalize db.queue.rows job.queue_id = r, db'.queue.rows job.queue_id = r' at hrow
  cases hrow with
  | other hn => exact absurd rfl hn
  | finalized => rfl

theorem numbers_of_attempt {clock : Time} {e : Event} (h : Does db log clock db' e) (q : String) :
    numbers db' q = numbers db q ++
      (e.attempt.toList.filter (fun a => decide (a.queue_id = q))).map (·.attempt_number) := by
  unfold numbers
  rw [h.attempts, List.filter_append, List.map_append]

/-! ## The invariant -/

/-- What holds between the rows, the ledger and the claims of a run. -/
structure Ledger (w : World) : Prop where
  /-- The ledger holds what the finalized claims wrote. -/
  attempts : w.db.attempts = w.log.filterMap Event.attempt
  /-- A row has attempts `1 .. attempt_count`, in this order. -/
  numbered : ∀ q, numbers w.db q = List.range' 1 (counted (w.db.queue.rows q))
  tokened : ∀ q row, w.db.queue.rows q = some row → row.status = .processing →
    row.claim_token.isSome
  /-- A token is issued once. -/
  fresh : History.Whenever (fun _ => True)
    (fun before e => ∀ token, e.issues = some token → ¬ issued before token) w.log
  /-- A job in a worker's hands has the token of a claim of its row. -/
  handed : ∀ job, handedOut w.log job → ∃ token claim, job.claim_token = some token ∧
    Event.claimed claim ∈ w.log ∧ claim.claim_token = some token ∧ claim.queue_id = job.queue_id
  /-- A row that is held was claimed under that token. -/
  origin : ∀ q row token, w.db.queue.rows q = some row → heldBy row token →
    ∃ claim, Event.claimed claim ∈ w.log ∧ claim.claim_token = some token ∧ claim.queue_id = q
  /-- While a row is held, the copy of its holder counts right. -/
  copied : ∀ job row token, handedOut w.log job → w.db.queue.rows job.queue_id = some row →
    job.claim_token = some token → heldBy row token → row.attempt_count = job.attempt_count
  /-- A token that wrote an attempt holds its row no more. -/
  spent : ∀ job a recover, Event.finalized job a recover ∈ w.log → ∀ row token,
    w.db.queue.rows job.queue_id = some row → job.claim_token = some token → ¬ heldBy row token
  /-- No token writes two attempts. -/
  once : ∀ token, (w.log.filterMap (Event.attemptUnder token)).length ≤ 1
  /-- A job that wrote an attempt was in a worker's hands. -/
  finalizer : ∀ job a recover, Event.finalized job a recover ∈ w.log → handedOut w.log job
  /-- After a claim, its row is not held under a token from before. -/
  newest : ∀ before claim after, w.log = before ++ .claimed claim :: after → ∀ row token,
    w.db.queue.rows claim.queue_id = some row → heldBy row token → ¬ issued before token

theorem handedOut_snoc {e : Event} :
    handedOut (log ++ [e]) job ↔ handedOut log job ∨ e.handed = some job := by
  simp [handedOut, or_and_right, exists_or]

theorem issues_eq_some {e : Event} :
    e.issues = some token ↔ ∃ job, e = .claimed job ∧ job.claim_token = some token := by
  cases e <;> simp [Event.issues]

theorem issued_of_claim {claim : Job} (h : Event.claimed claim ∈ log)
    (ht : claim.claim_token = some token) : issued log token :=
  ⟨_, h, ht⟩

theorem handed_eq_some {e : Event} : e.handed = some job ↔ e = .claimed job ∨ e = .expired job := by
  cases e <;> simp [Event.handed]

/-- A claim is under a fresh token, and its copy of the row counts right. -/
theorem Does.claimed {clock : Time} (h : Does db log clock db' (.claimed job)) :
    ∃ token row', job.claim_token = some token ∧ ¬ issued log token ∧
      db'.queue.rows job.queue_id = some row' ∧ row'.claim_token = some token ∧
      row'.attempt_count = job.attempt_count := by
  have hrow := h.rows job.queue_id
  generalize db.queue.rows job.queue_id = r at hrow
  generalize hr' : db'.queue.rows job.queue_id = r' at hrow ⊢
  generalize hq : job.queue_id = q at hrow
  cases hrow with
  | other hn => exact absurd hq hn
  | claimed row worker token now hw hd hf => exact ⟨token, _, rfl, hf, rfl, rfl, rfl⟩

/-- A claim whose lease is over is copied as it stands, and stays so. -/
theorem Does.expired {clock : Time} (h : Does db log clock db' (.expired job)) :
    ∃ row, db.queue.rows job.queue_id = some row ∧ db'.queue.rows job.queue_id = some row ∧
      row.status = .processing ∧ job.claim_token = row.claim_token ∧
      job.attempt_count = row.attempt_count := by
  have hrow := h.rows job.queue_id
  generalize db.queue.rows job.queue_id = r at hrow ⊢
  generalize db'.queue.rows job.queue_id = r' at hrow ⊢
  generalize hq : job.queue_id = q at hrow
  cases hrow with
  | other hn => exact absurd hq hn
  | expired row hs => exact ⟨row, rfl, rfl, hs, rfl, rfl⟩

/-- What a finalized claim was: in a worker's hands, and its row held under its token. -/
theorem Does.finalizer {clock : Time} {a : AttemptRow} {recover : Bool}
    (h : Does db log clock db' (.finalized job a recover)) :
    handedOut log job ∧ ∀ token, job.claim_token = some token →
      ∃ row, db.queue.rows job.queue_id = some row ∧ heldBy row token := by
  rcases (h.rows job.queue_id).counts with ⟨_, hn⟩ | hc
  · exact absurd rfl (hn job a recover rfl)
  · obtain ⟨row, job', a', recover', worker, he, hr, _, _, _, _, hj, ho⟩ := hc
    cases he
    refine ⟨hj, fun token ht => ⟨row, hr, ?_⟩⟩
    cases recover with
    | true => exact (ownsExpired_heldBy ho ht).1
    | false =>
      obtain ⟨token', ht', hh, _⟩ := owns_heldBy ho
      rw [ht, Option.some.injEq] at ht'
      subst ht'
      exact hh

namespace Ledger

/-- Two claims under one token are the same claim. -/
theorem same_claim {w : World} (i : Ledger w) {c d : Job} {token : String}
    (hc : Event.claimed c ∈ w.log) (hd : Event.claimed d ∈ w.log)
    (tc : c.claim_token = some token) (td : d.claim_token = some token) : c = d := by
  rcases History.eq_or_before hc hd with he | ⟨a, b, hl, hm⟩ | ⟨a, b, hl, hm⟩
  · cases he
    rfl
  · exact absurd (issued_of_claim hm tc) (i.fresh a _ b hl trivial token td)
  · exact absurd (issued_of_claim hm td) (i.fresh a _ b hl trivial token tc)

theorem issued_of_handed {w : World} (i : Ledger w) {job : Job} {token : String}
    (hj : handedOut w.log job) (ht : job.claim_token = some token) : issued w.log token := by
  obtain ⟨token', claim, ht', hc, hct, _⟩ := i.handed job hj
  rw [ht, Option.some.injEq] at ht'
  subst ht'
  exact issued_of_claim hc hct

theorem start {w : World} (hd : w.db = emptyDb) (hl : w.log = []) : Ledger w := by
  constructor
  case numbered => simp [hd, emptyDb, numbers, counted]
  case fresh =>
    rw [hl]
    exact History.whenever_nil _ _
  all_goals simp [hd, hl, emptyDb, handedOut]

section Step

variable {w w' : World} {clock : Time} {e : Event} (i : Ledger w)
  (d : Does w.db w.log clock w'.db e) (hl : w'.log = w.log ++ [e])
include i d hl

theorem attempts_step : w'.db.attempts = w'.log.filterMap Event.attempt := by
  rw [d.attempts, hl, List.filterMap_append, i.attempts]
  rcases h : e.attempt with _ | a <;> simp [h]

omit hl in
theorem numbered_step (q : String) :
    numbers w'.db q = List.range' 1 (counted (w'.db.queue.rows q)) := by
  rw [numbers_of_attempt d]
  rcases (d.rows q).counts with ⟨hc, hn⟩ | hf
  · rw [hc, i.numbered q]
    rcases ha : e.attempt with _ | a
    · simp
    · cases e with
      | finalized job a' recover =>
        cases ha
        have hq : a.queue_id ≠ q := by
          rw [d.attempt_queue]
          exact hn job a recover rfl
        simp [hq]
      | _ => simp [Event.attempt] at ha
  · obtain ⟨row, job, a, recover, worker, rfl, hr, hq, haq, han, hc, hj, _⟩ := hf
    obtain ⟨token, claim, ht, _⟩ := i.handed job hj
    obtain ⟨row', hr', hh⟩ := d.finalizer.2 token ht
    have hcopy := i.copied job row' token hj hr' ht hh
    rw [hq, hr, Option.some.injEq] at hr'
    subst hr'
    have hcount : counted (w.db.queue.rows q) = job.attempt_count := by
      rw [hr]
      exact hcopy
    rw [hc, i.numbered q, hcount, List.range'_concat]
    simp [Event.attempt, haq, han, Nat.add_comm]

omit hl in
theorem tokened_step (q : String) (row' : QueueRow) (hr : w'.db.queue.rows q = some row')
    (hp : row'.status = .processing) : row'.claim_token.isSome := by
  have hrow := d.rows q
  rw [hr] at hrow
  exact hrow.tokened (fun row h => i.tokened q row h) hp

omit i in
theorem fresh_step (hf : History.Whenever (fun _ => True)
      (fun before e => ∀ token, e.issues = some token → ¬ issued before token) w.log) :
    History.Whenever (fun _ => True)
      (fun before e => ∀ token, e.issues = some token → ¬ issued before token) w'.log := by
  rw [hl, History.whenever_snoc]
  refine ⟨hf, fun _ token ht => ?_⟩
  obtain ⟨job, rfl, hj⟩ := issues_eq_some.mp ht
  obtain ⟨token', _, ht', hfr, _⟩ := d.claimed
  rw [hj, Option.some.injEq] at ht'
  subst ht'
  exact hfr

theorem handed_step (job : Job) (hj : handedOut w'.log job) :
    ∃ token claim, job.claim_token = some token ∧ Event.claimed claim ∈ w'.log ∧
      claim.claim_token = some token ∧ claim.queue_id = job.queue_id := by
  rw [hl] at hj ⊢
  rcases handedOut_snoc.mp hj with hj | he
  · obtain ⟨token, claim, ht, hc, hct, hq⟩ := i.handed job hj
    exact ⟨token, claim, ht, by simp [hc], hct, hq⟩
  · rcases handed_eq_some.mp he with rfl | rfl
    · obtain ⟨token, _, ht, _⟩ := d.claimed
      exact ⟨token, job, ht, by simp, ht, rfl⟩
    · obtain ⟨row, hr, _, hp, hjt, _⟩ := d.expired
      obtain ⟨token, ht⟩ := Option.isSome_iff_exists.mp (i.tokened _ row hr hp)
      obtain ⟨claim, hc, hct, hq⟩ := i.origin _ row token hr ⟨hp, ht⟩
      exact ⟨token, claim, by rw [hjt, ht], by simp [hc], hct, hq⟩

theorem origin_step (q : String) (row' : QueueRow) (token : String)
    (hr : w'.db.queue.rows q = some row') (hh : heldBy row' token) :
    ∃ claim, Event.claimed claim ∈ w'.log ∧ claim.claim_token = some token ∧
      claim.queue_id = q := by
  have hrow := d.rows q
  rw [hr] at hrow
  rw [hl]
  rcases hrow.held hh with ⟨row, hr0, hh0, _⟩ | ⟨job, rfl, hq, ht, _⟩
  · obtain ⟨claim, hc, hct, hq⟩ := i.origin q row token hr0 hh0
    exact ⟨claim, by simp [hc], hct, hq⟩
  · exact ⟨job, by simp, ht, hq⟩

theorem copied_step (job : Job) (row' : QueueRow) (token : String) (hj : handedOut w'.log job)
    (hr : w'.db.queue.rows job.queue_id = some row') (ht : job.claim_token = some token)
    (hh : heldBy row' token) : row'.attempt_count = job.attempt_count := by
  rw [hl] at hj
  rcases handedOut_snoc.mp hj with hj | he
  · have hrow := d.rows job.queue_id
    rw [hr] at hrow
    rcases hrow.held hh with ⟨row, hr0, hh0, hc, _⟩ | ⟨_, _, _, _, _, hfr⟩
    · rw [hc]
      exact i.copied job row token hj hr0 ht hh0
    · exact absurd (i.issued_of_handed hj ht) hfr
  · rcases handed_eq_some.mp he with rfl | rfl
    · obtain ⟨_, row, _, _, hr0, _, hc⟩ := d.claimed
      rw [hr, Option.some.injEq] at hr0
      subst hr0
      exact hc
    · obtain ⟨row, _, hr0, _, _, hc⟩ := d.expired
      rw [hr, Option.some.injEq] at hr0
      subst hr0
      exact hc.symm

theorem spent_step (job : Job) (a : AttemptRow) (recover : Bool)
    (hm : Event.finalized job a recover ∈ w'.log) (row' : QueueRow) (token : String)
    (hr : w'.db.queue.rows job.queue_id = some row') (ht : job.claim_token = some token) :
    ¬ heldBy row' token := by
  intro hh
  have hrow := d.rows job.queue_id
  rw [hr] at hrow
  rw [hl, List.mem_append, List.mem_singleton] at hm
  rcases hm with hm | rfl
  · rcases hrow.held hh with ⟨row, hr0, hh0, _⟩ | ⟨_, _, _, _, _, hfr⟩
    · exact i.spent job a recover hm row token hr0 ht hh0
    · exact hfr (i.issued_of_handed (i.finalizer job a recover hm) ht)
  · rcases hrow.held hh with ⟨_, _, _, _, hn⟩ | ⟨_, he, _⟩
    · exact hn job a recover rfl rfl
    · cases he

theorem once_step (token : String) :
    (w'.log.filterMap (Event.attemptUnder token)).length ≤ 1 := by
  rw [hl, List.filterMap_append, List.length_append]
  rcases h : e.attemptUnder token with _ | a
  · simpa [h] using i.once token
  · cases e with
    | finalized job a' recover =>
      simp only [Event.attemptUnder] at h
      split at h
      · rename_i ht
        obtain ⟨hj, hheld⟩ := d.finalizer
        obtain ⟨row, hr, hh⟩ := hheld token ht
        obtain ⟨token', claim, ht', hc, hct, hq⟩ := i.handed job hj
        rw [ht, Option.some.injEq] at ht'
        subst ht'
        -- An earlier attempt under the token would be of the same row, which is held.
        have hnone : w.log.filterMap (Event.attemptUnder token) = [] := by
          rw [List.filterMap_eq_nil_iff]
          intro x hx
          cases x with
          | finalized job2 a2 recover2 =>
            simp only [Event.attemptUnder, ite_eq_right_iff, reduceCtorEq, imp_false]
            intro ht2
            obtain ⟨token2, claim2, ht2', hc2, hct2, hq2⟩ :=
              i.handed job2 (i.finalizer job2 a2 recover2 hx)
            rw [ht2, Option.some.injEq] at ht2'
            subst ht2'
            have hsame := i.same_claim hc hc2 hct hct2
            have hq' : job2.queue_id = job.queue_id := by rw [← hq2, ← hsame, hq]
            exact i.spent job2 a2 recover2 hx row token (by rw [hq', hr]) ht2 hh
          | _ => rfl
        simp [hnone, Event.attemptUnder, ht]
      · simp at h
    | _ => simp [Event.attemptUnder] at h

theorem finalizer_step (job : Job) (a : AttemptRow) (recover : Bool)
    (hm : Event.finalized job a recover ∈ w'.log) : handedOut w'.log job := by
  rw [hl, List.mem_append, List.mem_singleton] at hm
  rw [hl, handedOut_snoc]
  rcases hm with hm | rfl
  · exact Or.inl (i.finalizer job a recover hm)
  · exact Or.inl d.finalizer.1

theorem newest_step (before : List Event) (claim : Job) (after : List Event)
    (h : w'.log = before ++ .claimed claim :: after) (row' : QueueRow) (token : String)
    (hr : w'.db.queue.rows claim.queue_id = some row') (hh : heldBy row' token) :
    ¬ issued before token := by
  rw [hl] at h
  rcases History.append_singleton_eq_append_cons h with ⟨_, rfl, rfl⟩ | ⟨b', _, hb⟩
  · obtain ⟨token', row, _, hfr, hr0, ht, _⟩ := d.claimed
    rw [hr, Option.some.injEq] at hr0
    subst hr0
    rw [hh.2, Option.some.injEq] at ht
    subst ht
    exact hfr
  · have hrow := d.rows claim.queue_id
    rw [hr] at hrow
    rcases hrow.held hh with ⟨row, hr0, hh0, _⟩ | ⟨_, _, _, _, _, hfr⟩
    · exact i.newest before claim b' hb row token hr0 hh0
    · intro hi
      obtain ⟨x, hx, hxt⟩ := hi
      exact hfr ⟨x, by simp [hb, hx], hxt⟩

/-- One step keeps the invariant. -/
theorem step : Ledger w' where
  attempts := i.attempts_step d hl
  numbered := i.numbered_step d
  tokened := i.tokened_step d
  fresh := fresh_step d hl i.fresh
  handed := i.handed_step d hl
  origin := i.origin_step d hl
  copied := i.copied_step d hl
  spent := i.spent_step d hl
  once := i.once_step d hl
  finalizer := i.finalizer_step d hl
  newest := i.newest_step d hl

end Step

variable (digest8 : String → Nat)

/-- Every run keeps the invariant. -/
theorem of_reachable {w : World} (h : (machine digest8).Reachable w) : Ledger w := by
  apply h.invariant
  · intro s hs
    exact start hs.1 hs.2
  · intro s a s' hi hstep
    obtain ⟨e, hd, hl, _⟩ := step_does digest8 hstep
    exact hi.step hd hl

end Ledger

/-! ## Old tokens -/

/-- The claim of the job stands: the row is held under its token and the lease is not over. -/
def live (w : World) (job : Job) : Prop :=
  ∃ row token lease, w.db.queue.rows job.queue_id = some row ∧ job.claim_token = some token ∧
    heldBy row token ∧ row.lease_expires_at = some lease ∧ w.clock < lease

/-- After the token of the job was issued, its row was claimed again. -/
def superseded (log : List Event) (job : Job) : Prop :=
  ∃ before claim after token, log = before ++ .claimed claim :: after ∧
    claim.queue_id = job.queue_id ∧ job.claim_token = some token ∧ issued before token

variable (digest8 : String → Nat)

/-- No call of a worker with this job changes anything from now on. -/
def fenced (w : World) (job : Job) : Prop :=
  ∀ worker send_started result code reset_at now clock finished, w.clock ≤ clock →
    renew_claim w.db worker job send_started now clock = (false, w.db) ∧
    finalize_claim w.db worker job result false now clock finished = .ok (false, w.db) ∧
    defer_claim_for_quota digest8 w.db worker job code reset_at now clock = (false, w.db)

theorem live_of_owns {w : World} {worker : String} {clock : Time}
    (hr : w.db.queue.rows job.queue_id = some row) (hc : w.clock ≤ clock)
    (h : owns row worker job clock = true) : live w job := by
  obtain ⟨token, ht, hh, lease, hl, hlt⟩ := owns_heldBy h
  exact ⟨row, token, lease, hr, ht, hh, hl, lt_of_le_of_lt hc hlt⟩

/-- A job whose claim does not stand is fenced off. -/
theorem fenced_of_not_live {w : World} (h : ¬ live w job) : fenced digest8 w job := by
  intro worker send_started result code reset_at now clock finished hc
  unfold renew_claim finalize_claim defer_claim_for_quota
  rcases hr : w.db.queue.rows job.queue_id with _ | row
  · exact ⟨rfl, rfl, rfl⟩
  · have ho : ¬ owns row worker job clock = true := fun ho => h (live_of_owns hr hc ho)
    simp [ho]

/-- A claim that does not stand never stands again. -/
theorem live_step {w w' : World} {a : Action} (ht : job.claim_token = some token)
    (hi : issued w.log token) (hstep : step digest8 w a = some w') (h : live w' job) :
    live w job := by
  obtain ⟨e, d, hl, hc', hc, _⟩ := step_does digest8 hstep
  obtain ⟨row', token', lease, hr', ht', hh, hle, hlt⟩ := h
  rw [ht, Option.some.injEq] at ht'
  subst ht'
  have hrow := d.rows job.queue_id
  rw [hr'] at hrow
  rcases hrow.held hh with ⟨row, hr, hh0, _, _⟩ | ⟨_, _, _, _, _, hfr⟩
  · have hsame : ∀ lease, row.lease_expires_at = some lease → w.clock < lease → live w job :=
      fun lease hle hlt => ⟨row, token, lease, hr, ht, hh0, hle, hlt⟩
    rw [hr] at hrow
    rw [hc'] at hlt
    have hlt' : w.clock < lease := lt_of_le_of_lt hc hlt
    cases hrow with
    | other => exact hsame lease hle hlt'
    | expired => exact hsame lease hle hlt'
    | renewed _ job' worker lease' now started hq hj' ho =>
      obtain ⟨_, _, _, lease0, hl0, hlt0⟩ := owns_heldBy ho
      exact hsame lease0 hl0 (lt_of_le_of_lt hc hlt0)
    | claimed _ worker tok now hw => simp [waiting, hh0.1] at hw
    | finalized _ _ _ _ _ _ _ _ _ _ hs => exact absurd hh.1 (toQueue_ne_processing hs)
    | deferred => exact absurd hh.1 (by simp [deferRow])
    | retried => exact absurd hh.1 (by simp)
    | ownerRetried => exact absurd hh.1 (by simp)
    | noticed => exact absurd hh.1 (terminal_status_ne_processing _)
  · exact absurd hi hfr

theorem issued_step {w w' : World} {a : Action} (hi : issued w.log token)
    (hstep : step digest8 w a = some w') : issued w'.log token := by
  obtain ⟨e, _, hl, _⟩ := step_does digest8 hstep
  obtain ⟨x, hx, hxt⟩ := hi
  exact ⟨x, by simp [hl, hx], hxt⟩

theorem not_live_later {w w' : World} (h : (machine digest8).Reachable w)
    (ht : job.claim_token = some token) (hi : issued w.log token) (hn : ¬ live w job)
    (hl : (machine digest8).Later w w') : ¬ live w' job := by
  refine (hl.keeps (P := fun t => issued t.log token ∧ ¬ live t job) h ?_ ⟨hi, hn⟩).2
  intro t a t' _ hp hstep
  exact ⟨issued_step digest8 hp.1 hstep, fun hlive => hp.2 (live_step digest8 ht hp.1 hstep hlive)⟩

/-- A superseded token does not hold the row. -/
theorem not_held_of_superseded {w : World} (i : Ledger w) (h : superseded w.log job)
    (hr : w.db.queue.rows job.queue_id = some row) (ht : job.claim_token = some token) :
    ¬ heldBy row token := by
  obtain ⟨before, claim, after, token', hl, hq, ht', hi⟩ := h
  rw [ht, Option.some.injEq] at ht'
  subst ht'
  intro hh
  rw [← hq] at hr
  exact i.newest before claim after hl row token hr hh hi

theorem not_live_of_superseded {w : World} (i : Ledger w) (h : superseded w.log job) :
    ¬ live w job := by
  rintro ⟨row, token, lease, hr, ht, hh, _⟩
  exact not_held_of_superseded i h hr ht hh

/-- Recovery with a superseded job changes nothing. -/
theorem recover_refused_of_superseded {w : World} (i : Ledger w) (h : superseded w.log job)
    (worker : String) (result : DeliveryResult) (now clock finished : Time) :
    finalize_claim w.db worker job result true now clock finished = .ok (false, w.db) := by
  have hs := h
  obtain ⟨_, _, _, token, _, _, ht, _⟩ := hs
  unfold finalize_claim
  rcases hr : w.db.queue.rows job.queue_id with _ | row
  · rfl
  · have ho : ¬ ownsExpired row job clock = true := fun ho =>
      not_held_of_superseded i h hr ht (ownsExpired_heldBy ho ht).1
    simp [ho]

/-- Recovery changes a row only while it is held, unchanged, with its lease over. -/
theorem recover_needs_the_expired_claim {worker : String} {result : DeliveryResult}
    {now clock finished : Time} (ht : job.claim_token = some token)
    (h : finalize_claim db worker job result true now clock finished = .ok (true, db')) :
    ∃ row, db.queue.rows job.queue_id = some row ∧ heldBy row token ∧
      ∀ lease, row.lease_expires_at = some lease → lease ≤ clock := by
  unfold finalize_claim at h
  rcases hr : db.queue.rows job.queue_id with _ | row
  · simp [hr] at h
  · by_cases ho : ownsExpired row job clock = true
    · obtain ⟨hh, hl⟩ := ownsExpired_heldBy ho ht
      exact ⟨row, rfl, hh, hl⟩
    · simp [hr, ho] at h

/-! ## The law -/

/-- In every run: the attempts of a row are numbered `1 .. attempt_count`;
the ledger is what the finalized claims wrote, at most one row under each
token; a superseded job changes nothing, in either mode; and once a claim
does not stand, its job changes nothing in any later state, but for the
recovery of the claim that still holds its row with the lease over. -/
theorem attempts_are_numbered_and_old_tokens_change_nothing {w : World}
    (h : (machine digest8).Reachable w) :
    (∀ q row, w.db.queue.rows q = some row →
      numbers w.db q = List.range' 1 row.attempt_count) ∧
    w.db.attempts = w.log.filterMap Event.attempt ∧
    (∀ token, (w.log.filterMap (Event.attemptUnder token)).length ≤ 1) ∧
    (∀ job, superseded w.log job → fenced digest8 w job ∧
      ∀ worker result now clock finished,
        finalize_claim w.db worker job result true now clock finished = .ok (false, w.db)) ∧
    (∀ job token w', job.claim_token = some token → issued w.log token → ¬ live w job →
      (machine digest8).Later w w' → fenced digest8 w' job ∧
      ∀ worker result now clock finished db',
        finalize_claim w'.db worker job result true now clock finished = .ok (true, db') →
        ∃ row, w'.db.queue.rows job.queue_id = some row ∧ heldBy row token ∧
          ∀ lease, row.lease_expires_at = some lease → lease ≤ clock) := by
  have i := Ledger.of_reachable digest8 h
  refine ⟨?_, i.attempts, i.once, ?_, ?_⟩
  · intro q row hr
    rw [i.numbered q, hr]
    rfl
  · intro job hs
    exact ⟨fenced_of_not_live digest8 (not_live_of_superseded i hs),
      recover_refused_of_superseded i hs⟩
  · intro job token w' ht hi hn hl
    refine ⟨fenced_of_not_live digest8 (not_live_later digest8 h ht hi hn hl), ?_⟩
    intro worker result now clock finished db' hf
    exact recover_needs_the_expired_claim ht hf

/-- The copy that recovery takes of the first claim below. -/
def crashedJob : Job where
  queue_id := "q"
  attempt_count := 0
  company_id := "c"
  provider_config_id := "p"
  mail_id := "m"
  recipient_id := "r"
  status := .processing
  worker_id := some "w1"
  claim_token := some "t1"
  claimed_at := some 1
  send_started_at := none

/-- A worker dies, its claim is recovered, and the admin asks for a second try. -/
def crashRun : List Action :=
  [⟨.enqueue "q" "c" "p" "m" "r" false none, 0, 0⟩,
   ⟨.claim_next "w1" "t1" ∅ (some "q"), 1, 1⟩,
   ⟨.claim_next "w2" "t2" ∅ (some "q"), minutes 3, minutes 3⟩,
   ⟨.recover_expired "w2" crashedJob (minutes 3), minutes 3, minutes 3⟩,
   ⟨.retry "c" "q" true, minutes 4, minutes 4⟩,
   ⟨.claim_next "w2" "t2" ∅ (some "q"), minutes 5, minutes 5⟩]

def crashEnd : World :=
  ((machine (fun _ => 0)).run emptyWorld crashRun).get (by decide)

theorem crashEnd_reachable : (machine (fun _ => 0)).Reachable crashEnd :=
  Machine.reachable_of_run (emptyWorld_start _) (Option.some_get _).symm

theorem the_dead_worker_is_fenced_off :
    numbers crashEnd.db "q" = [1] ∧ fenced (fun _ => 0) crashEnd crashedJob :=
  have law := attempts_are_numbered_and_old_tokens_change_nothing (fun _ => 0) crashEnd_reachable
  ⟨law.1 "q" _ rfl, (law.2.2.2.1 crashedJob
    ⟨crashEnd.log.take 5, _, [], "t1", rfl, rfl, rfl, by decide⟩).1⟩

end moaworks.mail_queue
