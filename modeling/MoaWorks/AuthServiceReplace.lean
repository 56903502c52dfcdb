-- Replacing an active authenticator: every confirmed enrolment that does it
-- has a proof of its own, as long as no start uses an old verified address.
import MoaWorks.AuthServiceRuns

namespace moaworks.auth_service

open admin_mfa (Challenge EncryptedMfaSecret AdminMfaService Profile Purpose)
open History (Whenever)

/-! ## Proofs and what they are for -/

namespace Event

def user_id : Event → String
  | proved user_id _ | confirmed user_id _ _ => user_id

def authority : Event → Option Nat
  | proved _ _ => none
  | confirmed _ _ authority => authority

/-- An active authenticator of an active user was replaced. -/
def overwrites : Event → Bool
  | proved _ _ => false
  | confirmed _ overwrites _ => overwrites

end Event

variable {log : List Event} {user_id : String} {authority : Option Nat} {row : Challenge}
  {before : World}

/-- The authority is the place of a proof of the user, and his secret has not
changed since. -/
def Current (log : List Event) (user_id : String) (authority : Option Nat) : Prop :=
  ∃ n proof, authority = some n ∧ log[n]? = some (.proved user_id proof) ∧
    ∀ k event, n < k → log[k]? = some event → event.confirms user_id = false

/-- The log so far has a proof for the event. -/
def Answers (past : List Event) (event : Event) : Prop :=
  Current past event.user_id event.authority

/-- Each event that replaces an authenticator has a proof, and no two share one. -/
def OwnProofs (log : List Event) : Prop :=
  Whenever (fun event => event.overwrites = true) Answers log ∧
    ∀ (i j : Nat) (event other : Event), log[i]? = some event → log[j]? = some other →
      event.overwrites = true → other.overwrites = true → event.authority = other.authority → i = j

theorem Current.snoc {event : Event} (h : Current log user_id authority)
    (hevent : event.confirms user_id = false) : Current (log ++ [event]) user_id authority := by
  obtain ⟨n, proof, hn, hproof, hlater⟩ := h
  have hlt : n < log.length := (List.getElem?_eq_some_iff.1 hproof).1
  refine ⟨n, proof, hn, by rw [List.getElem?_append_left hlt]; exact hproof, ?_⟩
  intro k other hk hother
  by_cases hold : k < log.length
  · rw [List.getElem?_append_left hold] at hother
    exact hlater k other hk hother
  · rw [List.getElem?_append_right (by omega)] at hother
    have hmem := List.mem_of_getElem? hother
    rw [List.mem_singleton] at hmem
    rw [hmem]
    exact hevent

theorem Current.append {events : List Event} (h : Current log user_id authority)
    (hevents : ∀ event ∈ events, event.confirms user_id = false) :
    Current (log ++ events) user_id authority := by
  induction events generalizing log with
  | nil => simpa using h
  | cons event events ih =>
    have hsnoc := h.snoc (hevents event List.mem_cons_self)
    have hrest := ih hsnoc (fun other hother => hevents other (List.mem_cons_of_mem _ hother))
    rwa [List.append_assoc, List.singleton_append] at hrest

theorem JustProved.current (h : JustProved log user_id authority) :
    Current log user_id authority := by
  obtain ⟨past, proof, rfl, rfl⟩ := h
  refine ⟨past.length, proof, rfl, by simp, ?_⟩
  intro k event hk hevent
  have hlt := (List.getElem?_eq_some_iff.1 hevent).1
  rw [List.length_append, List.length_singleton] at hlt
  omega

/-- Of two events that rely on the same proof, the later one would see the earlier one. -/
theorem no_two_share (h : Whenever (fun event => event.overwrites = true) Answers log) {i j : Nat}
    {event other : Event} (hi : log[i]? = some event) (hj : log[j]? = some other)
    (hevent : event.overwrites = true) (hother : other.overwrites = true)
    (hsame : event.authority = other.authority) : ¬ i < j := by
  intro hlt
  have hanswer : ∀ k e, log[k]? = some e → e.overwrites = true → Answers (log.take k) e := by
    intro k e hk he
    obtain ⟨hk', rfl⟩ := List.getElem?_eq_some_iff.1 hk
    refine h (log.take k) _ (log.drop (k + 1)) ?_ he
    rw [List.getElem_cons_drop, List.take_append_drop]
  obtain ⟨n, proof, hn, hproof, _⟩ := hanswer i event hi hevent
  obtain ⟨m, proof', hm, hproof', hlater⟩ := hanswer j other hj hother
  rw [hsame, hm] at hn
  cases hn
  have hni : n < i := by
    have hbound := (List.getElem?_eq_some_iff.1 hproof).1
    rw [List.length_take] at hbound
    omega
  rw [List.getElem?_take_of_lt hni] at hproof
  rw [List.getElem?_take_of_lt (by omega), hproof] at hproof'
  have huser : event.user_id = other.user_id := by
    simp only [Option.some.injEq, Event.proved.injEq] at hproof'
    exact hproof'.1
  have hseen := hlater i event hni (by rw [List.getElem?_take_of_lt hlt]; exact hi)
  cases event with
  | proved => cases hevent
  | confirmed user_id overwrites authority =>
    have hself : (Event.confirmed user_id overwrites authority).confirms other.user_id = true := by
      rw [← huser]
      exact decide_eq_true rfl
    rw [hself] at hseen
    cases hseen

theorem own_proofs_iff :
    OwnProofs log ↔ Whenever (fun event => event.overwrites = true) Answers log := by
  constructor
  · exact fun h => h.1
  · intro h
    refine ⟨h, fun i j event other hi hj hevent hother hsame => ?_⟩
    have hij := no_two_share h hi hj hevent hother hsame
    have hji := no_two_share h hj hi hother hevent hsame.symm
    omega

/-! ## The invariant -/

/-- What the row of a challenge promises: whoever can still use it to replace the
authenticator of an active user has proved who he is since the last enrolment. -/
def Authorised (log : List Event) (active newer : Bool) (row : Challenge) (authority : Option Nat) :
    Prop :=
  match row.purpose with
  | .mfa_reenroll => unused row = true → Current log row.user_id authority
  | .email_verify => active = true → newer = true → Current log row.user_id authority
  | .enroll => unused row = true → active = true → Current log row.user_id authority
  | .admin_enrollment => unused row = true → active = false
  | .login | .recovery => True

structure Safe (w : World) : Prop where
  created : ∀ id row, w.challenges id = some row → row.created_at ≤ w.clock
  own : Whenever (fun event => event.overwrites = true) Answers w.log
  rows : ∀ id row, w.challenges id = some row →
    Authorised w.log (w.active row.user_id) (newer w row) row (w.authority id)
  single : ∀ id id' row row', w.challenges id = some row → w.challenges id' = some row' →
    row.purpose = .enroll → row'.purpose = .enroll → unused row = true → unused row' = true →
    row.user_id = row'.user_id → id = id'

/-- A row that is closed, or whose user is less active, promises less. -/
theorem Authorised.weaken {log' : List Event} {active active' newer newer' : Bool}
    {row' : Challenge} (h : Authorised log active newer row authority) (hcloses : Closes row row')
    (hlog : Current log row.user_id authority → Current log' row.user_id authority)
    (hactive : active' = true → active = true) (hnewer : newer' = true → newer = true) :
    Authorised log' active' newer' row' authority := by
  unfold Authorised at h ⊢
  rw [hcloses.purpose, hcloses.user_id]
  cases hpurpose : row.purpose with
  | login => trivial
  | recovery => trivial
  | mfa_reenroll =>
    rw [hpurpose] at h
    exact fun hunused => hlog (h (hcloses.unused hunused))
  | email_verify =>
    rw [hpurpose] at h
    exact fun ha hn => hlog (h (hactive ha) (hnewer hn))
  | enroll =>
    rw [hpurpose] at h
    exact fun hunused ha => hlog (h (hcloses.unused hunused) (hactive ha))
  | admin_enrollment =>
    rw [hpurpose] at h
    intro hunused
    have hfalse := h (hcloses.unused hunused)
    cases ha : active' with
    | false => rfl
    | true =>
      rw [hactive ha] at hfalse
      cases hfalse

variable {env : Environment} {w w' : World} {fresh : Prop}

theorem active_touched (hprofile : Touched (w.profiles user_id) (w'.profiles user_id))
    (husers : w'.directory.users.rows user_id = w.directory.users.rows user_id) :
    w'.active user_id = w.active user_id := by
  unfold World.active
  rw [husers]
  congr 1
  revert hprofile
  generalize w.profiles user_id = p, w'.profiles user_id = p'
  rintro (_ | ⟨hstatus, _⟩ | ⟨_, hstatus, _, _⟩)
  · rfl
  · simp [hstatus]
  · simp [hstatus]

theorem newer_touched {row' : Challenge} (hcloses : Closes row row')
    (hprofile : Touched (w.profiles row.user_id) (w'.profiles row.user_id)) :
    newer w' row' = newer w row := by
  unfold newer
  rw [hcloses.user_id, hcloses.created_at]
  revert hprofile
  generalize w.profiles row.user_id = p, w'.profiles row.user_id = p'
  rintro (_ | ⟨_, hactivated⟩ | ⟨_, _, _, hactivated⟩)
  · rfl
  · simp [hactivated]
  · simp [hactivated]

theorem Quiet.own (h : Quiet w before)
    (hown : Whenever (fun event => event.overwrites = true) Answers w.log) :
    Whenever (fun event => event.overwrites = true) Answers before.log := by
  obtain ⟨proofs, hlog, hproofs⟩ := h.log
  rw [hlog, History.whenever_append]
  · exact hown
  · intro event hevent hoverwrites
    cases event with
    | proved => cases hoverwrites
    | confirmed user_id overwrites authority =>
      have hconfirms := hproofs _ hevent user_id
      simp [Event.confirms] at hconfirms

theorem Safe.single_of_closes (h : Safe w)
    (hcloses : ∀ id, Option.Rel Closes (w.challenges id) (w'.challenges id)) :
    ∀ id id' row row', w'.challenges id = some row → w'.challenges id' = some row' →
      row.purpose = .enroll → row'.purpose = .enroll → unused row = true → unused row' = true →
      row.user_id = row'.user_id → id = id' := by
  intro id id' row row' hrow hrow' hpurpose hpurpose' hunused hunused' huser
  obtain ⟨old, hold, hclosed⟩ := rows_of_closes (hcloses id) hrow
  obtain ⟨old', hold', hclosed'⟩ := rows_of_closes (hcloses id') hrow'
  rw [hclosed.purpose] at hpurpose
  rw [hclosed'.purpose] at hpurpose'
  rw [hclosed.user_id, hclosed'.user_id] at huser
  exact h.single id id' old old' hold hold' hpurpose hpurpose' (hclosed.unused hunused)
    (hclosed'.unused hunused') huser

theorem Safe.quiet (h : Safe w) (hquiet : Quiet w w') : Safe w' where
  created := by
    intro id row' hrow'
    obtain ⟨row, hrow, hcloses⟩ := rows_of_quiet hquiet hrow'
    rw [hcloses.created_at, hquiet.clock]
    exact h.created id row hrow
  own := hquiet.own h.own
  rows := by
    intro k row' hrow'
    obtain ⟨row, hrow, hcloses⟩ := rows_of_quiet hquiet hrow'
    obtain ⟨proofs, hlog, hproofs⟩ := hquiet.log
    rw [newer_touched hcloses (hquiet.profiles row.user_id), hcloses.user_id,
      active_touched (hquiet.profiles row.user_id) (by rw [hquiet.users]), hquiet.authority, hlog]
    exact (h.rows k row hrow).weaken hcloses
      (fun hcurrent => hcurrent.append (fun event hevent => hproofs event hevent _)) id id
  single := h.single_of_closes hquiet.challenges

theorem Quiet.active (h : Quiet w before) (user_id : String) :
    before.active user_id = w.active user_id :=
  active_touched (h.profiles user_id) (by rw [h.users])

/-- A challenge that is issued for a reason promises what it must. -/
theorem Justified.authorised (hjust : Justified fresh w before row authority) (hfresh : fresh)
    (h : Safe w) (hquiet : Quiet w before) (newer : Bool) :
    Authorised before.log (before.active row.user_id) newer row authority := by
  obtain ⟨proofs, hlog, hproofs⟩ := hquiet.log
  have hkept : ∀ {a}, Current w.log row.user_id a → Current before.log row.user_id a := by
    intro a hcurrent
    rw [hlog]
    exact hcurrent.append (fun event hevent => hproofs event hevent _)
  unfold Justified at hjust
  unfold Authorised
  rw [hquiet.active]
  cases hpurpose : row.purpose with
  | login => trivial
  | recovery => trivial
  | mfa_reenroll =>
    rw [hpurpose] at hjust
    exact fun _ => JustProved.current hjust
  | admin_enrollment =>
    rw [hpurpose] at hjust
    exact fun _ => hjust
  | email_verify =>
    rw [hpurpose] at hjust
    intro hactive _
    rcases hjust with hinactive | hproved | ⟨k, flow, hflow, hunused, huser, hflow_purpose, rfl⟩
    · rw [hactive] at hinactive
      cases hinactive
    · exact hproved.current
    · have hpromise := h.rows k flow hflow
      unfold Authorised at hpromise
      rw [huser] at hpromise
      rcases hflow_purpose with hentry | hreenroll
      · -- a first enrolment is open only for users who are not active yet
        rw [hentry] at hpromise
        have hinactive := hpromise hunused
        rw [hactive] at hinactive
        cases hinactive
      · rw [hreenroll] at hpromise
        exact hkept (hpromise hunused)
  | enroll =>
    rw [hpurpose] at hjust
    obtain ⟨_, k, source, hsource, huser, rfl, hwhy⟩ := hjust
    intro _ hactive
    have hpromise := h.rows k source hsource
    unfold Authorised at hpromise
    rw [huser] at hpromise
    rcases hwhy with ⟨hreenroll, hunused⟩ | ⟨hemail, hnewer⟩
    · rw [hreenroll] at hpromise
      exact hkept (hpromise hunused)
    · rw [hemail] at hpromise
      rw [huser] at hnewer
      exact hkept (hpromise hactive (hnewer hfresh hactive))

theorem Safe.issue (h : Safe w) {id : String} (hcreated : row.created_at = w.clock)
    (hrow : Authorised w.log (w.active row.user_id) (newer w row) row authority)
    (hsingle : row.purpose = .enroll → ∀ k other, w.challenges k = some other →
      other.user_id = row.user_id → other.purpose = .enroll → unused other = false) :
    Safe (w.issue id row authority) where
  created := by
    intro k other hk
    simp only [World.issue] at hk
    split_ifs at hk
    · cases hk
      exact le_of_eq hcreated
    · exact h.created k other hk
  own := h.own
  rows := by
    intro k other hk
    change Authorised w.log (w.active other.user_id) (newer w other) other
      (if k = id then authority else w.authority k)
    simp only [World.issue] at hk
    split_ifs at hk with hnew
    · cases hk
      rw [if_pos hnew]
      exact hrow
    · rw [if_neg hnew]
      exact h.rows k other hk
  single := by
    intro k k' other other' hk hk' hpurpose hpurpose' hunused hunused' huser
    simp only [World.issue] at hk hk'
    split_ifs at hk hk' with hnew hnew'
    · rw [hnew, hnew']
    · cases hk
      rw [hsingle hpurpose k' other' hk' huser.symm hpurpose'] at hunused'
      cases hunused'
    · cases hk'
      rw [hsingle hpurpose' k other hk huser hpurpose] at hunused
      cases hunused
    · exact h.single k k' other other' hk hk' hpurpose hpurpose' hunused hunused' huser

theorem Safe.issued (h : Safe w) (hquiet : Quiet w before) {id : String}
    (hcreated : row.created_at = w.clock) (hjust : Justified fresh w before row authority)
    (hfresh : fresh) : Safe (before.issue id row authority) := by
  refine (h.quiet hquiet).issue (hcreated.trans hquiet.clock.symm)
    (hjust.authorised hfresh h hquiet _) ?_
  intro hpurpose
  unfold Justified at hjust
  rw [hpurpose] at hjust
  exact hjust.1

/-- A confirmed enrolment uses up everything that its user could enrol with. -/
theorem Confirmed.safe {id : String} (hdone : Confirmed w w' id row) (h : Safe w) :
    Safe w' where
  created := by
    intro k row' hk
    obtain ⟨old, hold, hcloses⟩ := rows_of_closes (hdone.challenges k) hk
    rw [hcloses.created_at, hdone.clock]
    exact h.created k old hold
  own := by
    rw [hdone.log, History.whenever_snoc]
    refine ⟨h.own, fun hoverwrites => ?_⟩
    have hpromise := h.rows id row hdone.found
    unfold Authorised at hpromise
    rw [hdone.purpose] at hpromise
    exact hpromise hdone.unused hoverwrites
  rows := by
    intro k row' hk
    obtain ⟨old, hold, hcloses⟩ := rows_of_closes (hdone.challenges k) hk
    by_cases huser : old.user_id = row.user_id
    · have huser' : row'.user_id = row.user_id := hcloses.user_id.trans huser
      obtain ⟨profile, profile', _, hprofile', _, hactivated⟩ := hdone.profile
      unfold Authorised
      cases hpurpose : row'.purpose with
      | login => trivial
      | recovery => trivial
      | mfa_reenroll =>
        intro hunused
        rw [hdone.entered k row' hk (by simp [entering, huser', hpurpose])] at hunused
        cases hunused
      | admin_enrollment =>
        intro hunused
        rw [hdone.entered k row' hk (by simp [entering, huser', hpurpose])] at hunused
        cases hunused
      | email_verify =>
        -- no challenge is newer than the authenticator that was enrolled right now
        intro _ hnewer
        unfold newer at hnewer
        have hcreated := h.created k old hold
        rw [huser', hprofile'] at hnewer
        simp only [Option.all_some, hactivated, decide_eq_true_eq, hcloses.created_at] at hnewer
        exact absurd hcreated (Nat.not_le.2 hnewer)
      | enroll =>
        intro hunused
        have hsame := h.single id k row old hdone.found hold hdone.purpose
          (hcloses.purpose ▸ hpurpose) hdone.unused (hcloses.unused hunused) huser.symm
        rw [hdone.used row' (hsame ▸ hk)] at hunused
        cases hunused
    · obtain ⟨hprofile, husers⟩ := hdone.others old.user_id huser
      have htouched : Touched (w.profiles old.user_id) (w'.profiles old.user_id) := by
        rw [hprofile]
        exact Touched.refl _
      rw [newer_touched hcloses htouched, hcloses.user_id, active_touched htouched husers,
        hdone.authority, hdone.log]
      refine (h.rows k old hold).weaken hcloses (fun hcurrent => hcurrent.snoc ?_) (fun ha => ha)
        (fun hn => hn)
      exact decide_eq_false (fun heq => huser heq.symm)
  single := h.single_of_closes hdone.challenges

theorem Safe.tick (h : Safe w) {later : Time} (hlater : w.clock ≤ later) :
    Safe { w with clock := later } where
  created := fun id row hrow => le_trans (h.created id row hrow) hlater
  own := h.own
  rows := h.rows
  single := h.single

theorem Effect.safe (heffect : Effect fresh w w') (hfresh : fresh) (h : Safe w) : Safe w' := by
  cases heffect with
  | quiet hquiet => exact h.quiet hquiet
  | issued before id row authority hquiet _ hcreated hjust heq =>
    rw [heq]
    exact h.issued hquiet hcreated hjust hfresh
  | confirmed id row hdone => exact hdone.safe h

theorem start_safe (h : Start w) : Safe w where
  created := by
    intro id row hrow
    rw [h.challenges id] at hrow
    cases hrow
  own := by
    rw [h.log]
    exact History.whenever_nil _ _
  rows := by
    intro id row hrow
    rw [h.challenges id] at hrow
    cases hrow
  single := by
    intro id _ row _ hrow
    rw [h.challenges id] at hrow
    cases hrow

/-- In every run in which no start uses an address that was verified before the
active authenticator was enrolled. -/
theorem safe_run (h : (machine env).Reach (fun w a => uses_new_verification w a = true) w) : Safe w := by
  refine Machine.Reach.invariant (I := Safe) (fun s hs => start_safe hs) ?_ h
  intro s a s' _ hsafe hok hstep
  obtain ⟨hclock, heffect⟩ := step_effect hstep
  exact heffect.safe hok (hsafe.tick hclock)

/-- Each replaced authenticator has a proof of its own, given while it was the
current one, in every run whose starts use new verifications only. -/
theorem replacing_needs_a_fresh_proof
    (h : (machine env).Reach (fun w a => uses_new_verification w a = true) w) : OwnProofs w.log :=
  own_proofs_iff.2 (safe_run h).own

/-- The administrator proves himself, verifies a new address, and logs in again. -/
def verifies : List Action :=
  [⟨.request_recovery_email (some "admin") ⟨none, "new@example.test", some "secret", some "359152"⟩ "v"
      123456 true, at_once (seconds 60)⟩,
    ⟨.verify_recovery_email (some "admin") ⟨none, "v", "new@example.test", "123456"⟩,
      at_once (seconds 61)⟩,
    ⟨.login "admin@example.test" "secret" "login", at_once (seconds 62)⟩,
    ⟨.verify_admin_mfa "login" "969429", at_once (seconds 90)⟩]

/-- An enrolment with this address, which takes three seconds. -/
def enrols (id : String) (moment : Nat) : List Action :=
  [⟨.start_totp_enrollment (some "admin") none (some "v") ⟨id, "profile", "nonce", id⟩,
      at_once (seconds moment)⟩,
    ⟨.confirm_totp_enrollment id "969429" [], at_once (seconds (moment + 3))⟩]

/-- The administrator after one enrolment with it. -/
def enrolledOnce : World :=
  ((machine plainEnvironment).runWithin (fun w a => uses_new_verification w a = true) adminAlone
    (verifies ++ enrols "first" 91)).get (by decide)

theorem one_enrollment_has_its_proof : OwnProofs enrolledOnce.log ∧
    enrolledOnce.log = [.proved "admin" .step_up, .confirmed "admin" true (some 0)] :=
  ⟨replacing_needs_a_fresh_proof ((Machine.Reach.start adminAlone_starts).runWithin
    (Option.some_get _).symm), by decide +kernel⟩

/-- And after a second one, with the address that was verified for the first. -/
def enrolledTwice : World :=
  ((machine plainEnvironment).run adminAlone
    (verifies ++ enrols "first" 91 ++ enrols "second" 95)).get (by decide)

/-- One proof is enough to replace the authenticator twice: the verified address
is not used up. -/
theorem one_proof_replaces_twice : (machine plainEnvironment).Reachable enrolledTwice ∧
    enrolledTwice.log = [.proved "admin" .step_up, .confirmed "admin" true (some 0),
      .confirmed "admin" true (some 0)] ∧
    ¬ OwnProofs enrolledTwice.log := by
  have hlog : enrolledTwice.log = [.proved "admin" .step_up, .confirmed "admin" true (some 0),
      .confirmed "admin" true (some 0)] := by
    decide +kernel
  refine ⟨Machine.reachable_of_run adminAlone_starts (Option.some_get _).symm, hlog, ?_⟩
  rintro ⟨_, hshare⟩
  have hsame := hshare 1 2 _ _ (by rw [hlog]; rfl) (by rw [hlog]; rfl) rfl rfl rfl
  cases hsame

end moaworks.auth_service
