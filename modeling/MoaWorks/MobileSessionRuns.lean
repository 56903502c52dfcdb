-- Runs of the mobile session: which responses may act, and that a logout leaves all earlier ones
-- without an effect.
import Mathlib.Data.List.Nodup
import MoaWorks.MobileSessionLaws

namespace moaworks.auth_session

variable {w w' before : World} {c : Context} {l : Nat} {e : Event}

/-- The entry has happened for the login begun last, or for the active session. -/
def Justified : Entry → Prop
  | .committed l _ _ owner => owner = some l
  | .applied context _ session => session.map Session.context = some context
  | .started context session => session.map Session.context = some context
  | .cleared .logout _ _ => True
  | .cleared (.request context) _ session => session.map Session.context = some context
  | .cleared (.attempt l) owner session => owner = some l ∧ session = none

/-- The login whose session, or whose attempt, a response has cleared. -/
def ended : Entry → Option Nat
  | .cleared (.request _) _ session => session.map Session.login
  | .cleared (.attempt l) _ _ => some l
  | _ => none

/-- No request, and no sequence of more than one task, begins without a session and with a context
that has been taken with the empty token since the last login or logout. -/
def Sound (w : World) : Event → Prop
  | .send _ k _ => w.session = none → ∀ c, w.contexts k = some c → c.token = some "" →
    c.generation ≠ w.controller.generation
  | .initial _ k tasks => 2 ≤ tasks → w.session = none → ∀ c, w.contexts k = some c →
    c.token = some "" → c.generation ≠ w.controller.generation
  | _ => True

/-! ## Contexts that wait for a response -/

/-- Without a session the context does not pass for the current one. -/
def Held (w : World) (c : Context) : Prop :=
  w.session = none → isCurrent w.controller c = false

/-- The state of a run in which each step is sound. -/
structure Fair (w : World) : Prop where
  requests : ∀ r x, w.requests r = some x → ∀ c, x.context = some c → Held w c
  sequences : ∀ s x, w.sequences s = some x → ∀ c left, x = .running c (left + 1) → Held w c
  justified : ∀ e ∈ w.log, Justified e
  ended_done : ∀ l ∈ w.log.filterMap ended, w.logins l = some .done ∧
    ∀ s, w.session = some s → s.login ≠ l
  ended_nodup : (w.log.filterMap ended).Nodup

theorem session_of_current (h : Ordered w) (hheld : Held w c) (hc : isCurrent w.controller c = true) :
    ∃ s, w.session = some s ∧ s.context = c := by
  rcases hs : w.session with _ | s
  · rw [hheld hs] at hc
    cases hc
  · obtain ⟨hgen, htoken⟩ := isCurrent_iff.mp hc
    refine ⟨s, rfl, ?_⟩
    rw [(h.session s hs).2.1, ← hgen, ← htoken]

/-- A new generation leaves every context behind. -/
theorem held_of_le (hw : w'.controller.generation = w.controller.generation + 1)
    (hc : c.generation ≤ w.controller.generation) : Held w' c :=
  fun _ => isCurrent_of_lt (hw ▸ Nat.lt_succ_of_le hc)

theorem held_of_sound (h : Ordered w)
    (hc : w.session = none → c.token = some "" → c.generation ≠ w.controller.generation) :
    Held w c := by
  intro hs
  rw [← Bool.not_eq_true, isCurrent_iff, h.no_session hs]
  rintro ⟨hgen, htoken⟩
  exact hc hs htoken hgen

/-- No response has ended a login that still waits. -/
theorem not_ended {x : Login} {attempt : Attempt} (h : Fair w) (hl : w.logins l = some x)
    (ha : x.attempt = some attempt) : l ∉ w.log.filterMap ended := by
  intro hmem
  have hdone := (h.ended_done l hmem).1
  rw [hl] at hdone
  cases hdone
  cases ha

theorem done_put {x : Login} (h : Fair w) (hl : l ∉ w.log.filterMap ended) :
    ∀ j ∈ w.log.filterMap ended, put w.logins l x j = some .done := by
  intro j hj
  have hne : j ≠ l := fun heq => hl (heq ▸ hj)
  rw [put_ne w.logins x hne]
  exact (h.ended_done j hj).1

theorem Fair.setLogin {x : Login} (h : Fair w) (hl : l ∉ w.log.filterMap ended) :
    Fair (w.setLogin l x) :=
  { h with ended_done := fun j hj => ⟨done_put h hl j hj, (h.ended_done j hj).2⟩ }

theorem Fair.setRequest {r : Nat} {x : Request} (h : Fair w)
    (hx : ∀ c, x.context = some c → Held w c) : Fair (w.setRequest r x) :=
  { h with requests := put_all h.requests hx }

theorem Fair.setSequence {s : Nat} {x : Sequence} (h : Fair w)
    (hx : ∀ c left, x = .running c (left + 1) → Held w c) : Fair (w.setSequence s x) :=
  { h with sequences := put_all h.sequences hx }

/-- An entry that ends no login. -/
theorem Fair.record {e : Entry} (h : Fair w) (hjust : Justified e) (hended : ended e = none) :
    Fair { w with log := e :: w.log } := by
  have hlog : (e :: w.log).filterMap ended = w.log.filterMap ended :=
    List.filterMap_cons_none hended
  refine { h with justified := ?_, ended_done := ?_, ended_nodup := ?_ }
  · exact List.forall_mem_cons.mpr ⟨hjust, h.justified⟩
  · rw [hlog]
    exact h.ended_done
  · rw [hlog]
    exact h.ended_nodup

/-- A response clears what no response has cleared before. -/
theorem Fair.clear {cause : Cause} (h : Fair w) (ho : Ordered w)
    (hjust : Justified (.cleared cause w.owner w.session))
    (hended : ∀ l, ended (.cleared cause w.owner w.session) = some l →
      l ∉ w.log.filterMap ended ∧ w.logins l = some .done) :
    Fair (w.clear (logout w.controller) cause) := by
  have hlog : (w.clear (logout w.controller) cause).log =
      .cleared cause w.owner w.session :: w.log := rfl
  refine ⟨?_, ?_, ?_, ?_, ?_⟩
  · exact fun r x hr c hc => held_of_le rfl (ho.requests r x hr c hc)
  · intro s x hs c left hx
    exact held_of_le rfl (ho.sequences s x hs c (by rw [hx]; rfl))
  · exact List.forall_mem_cons.mpr ⟨hjust, h.justified⟩
  · intro l hl
    refine ⟨?_, nofun⟩
    rw [hlog, List.filterMap_cons] at hl
    rcases hend : ended (.cleared cause w.owner w.session) with _ | j <;> rw [hend] at hl
    · exact (h.ended_done l hl).1
    · rcases List.mem_cons.mp hl with rfl | hold
      · exact (hended l hend).2
      · exact (h.ended_done l hold).1
  · rw [hlog, List.filterMap_cons]
    rcases hend : ended (.cleared cause w.owner w.session) with _ | j
    · exact h.ended_nodup
    · exact List.nodup_cons.mpr ⟨(hended j hend).1, h.ended_nodup⟩

theorem Fair.begin (h : Fair w) (ho : Ordered w) (hl : w.logins l = none) :
    Fair { w.setLogin l (.requesting (beginLogin w.controller).2) with
      controller := (beginLogin w.controller).1
      owner := some l
      session := none } := by
  have hnot : l ∉ w.log.filterMap ended := by
    intro hmem
    have hdone := (h.ended_done l hmem).1
    rw [hl] at hdone
    cases hdone
  refine ⟨?_, ?_, h.justified, ?_, h.ended_nodup⟩
  · exact fun r x hr c hc => held_of_le rfl (ho.requests r x hr c hc)
  · intro s x hs c left hx
    exact held_of_le rfl (ho.sequences s x hs c (by rw [hx]; rfl))
  · exact fun j hj => ⟨done_put h hnot j hj, nofun⟩

/-- A login that commits becomes the session, and was the login begun last. -/
theorem Fair.commit {attempt : Attempt} {token : Token} {user : String} (h : Fair w)
    (ho : Ordered w) (hl : w.logins l = some (.answered attempt token user))
    (hgen : attempt.generation = w.controller.generation) :
    Fair { w.setLogin l .done with
      controller := ⟨w.controller.generation, token⟩
      session := some ⟨l, ⟨w.controller.generation, token⟩⟩
      log := .committed l ⟨w.controller.generation, token⟩ user w.owner :: w.log } := by
  have hnot := not_ended h hl rfl
  refine ⟨nofun, nofun, ?_, ?_, h.ended_nodup⟩
  · exact List.forall_mem_cons.mpr ⟨((ho.attempts l _ hl attempt rfl).2 hgen).1, h.justified⟩
  · intro j hj
    refine ⟨done_put h hnot j hj, ?_⟩
    rintro s ⟨⟩ rfl
    exact hnot hj

/-! ## One step of a sound run -/

/-- A response that clears a session does it for the request of that session. -/
theorem Fair.expire (h : Fair w) (ho : Ordered w) (hheld : Held w c)
    (hcurrent : isCurrent w.controller c = true) :
    Fair (w.clear (logout w.controller) (.request c)) := by
  obtain ⟨s, hs, hcontext⟩ := session_of_current ho hheld hcurrent
  refine h.clear ho ?_ ?_
  · rw [hs, ← hcontext]
    rfl
  · rw [hs]
    rintro l ⟨⟩
    exact ⟨fun hmem => (h.ended_done s.login hmem).2 s hs rfl, (ho.session s hs).2.2⟩

theorem Fair.step (h : Fair w) (ho : Ordered w) (hsound : Sound w e)
    (hstep : auth_session.step w e = some w') : Fair w' := by
  cases effect_of_step hstep with
  | begun hl => exact h.begin ho hl
  | login hl ha => exact h.setLogin (not_ended h hl ha)
  | committed hl hgen => exact h.commit ho hl hgen
  | @refused l attempt token _ hl hgen =>
    have hnot := not_ended h hl rfl
    have hset : Fair (w.setLogin l .done) := h.setLogin hnot
    have hordered : Ordered (w.setLogin l .done) := ho.setLogin hl rfl nofun
    refine hset.clear hordered ((ho.attempts l _ hl attempt rfl).2 hgen) ?_
    rintro j ⟨⟩
    exact ⟨hnot, put_self _ _ _⟩
  | logout => exact h.clear ho trivial nofun
  | capture hk => exact { h with }
  | send hr hk =>
    refine h.setRequest ?_
    rintro c ⟨⟩
    exact held_of_sound ho (fun hs => hsound hs _ hk)
  | request hr hc hnew =>
    refine h.setRequest ?_
    intro c hsome
    rw [hnew c hsome]
    exact h.requests _ _ hr _ hc
  | @expired r context _ _ hr hcurrent =>
    have hset : Fair (w.setRequest r .done) := h.setRequest nofun
    have hordered : Ordered (w.setRequest r .done) := ho.setRequest nofun
    exact hset.expire hordered (h.requests r _ hr context rfl) hcurrent
  | @applied r context value hr hcurrent =>
    have hset : Fair (w.setRequest r .done) := h.setRequest nofun
    obtain ⟨s, hs, rfl⟩ := session_of_current ho (h.requests r _ hr context rfl) hcurrent
    refine hset.record ?_ rfl
    rw [hs]
    rfl
  | initial hs hk hnew =>
    refine h.setSequence ?_
    intro c left hx
    obtain ⟨rfl, rfl⟩ := hnew c (left + 1) hx
    exact held_of_sound ho (fun hs => hsound (Nat.le_add_left 2 left) hs c hk)
  | sequence hs => exact h.setSequence nofun
  | @started s left context _ hs hcurrent =>
    have hheld := h.sequences s _ hs context left rfl
    have hset : Fair (w.setSequence s (.running context left)) := by
      refine h.setSequence ?_
      rintro c left' ⟨⟩
      exact hheld
    obtain ⟨a, ha, rfl⟩ := session_of_current ho hheld hcurrent
    refine hset.record ?_ rfl
    rw [ha]
    rfl

theorem fair_of_reach (h : machine.Reach Sound w) : Fair w := by
  refine Machine.Reach.invariant ?_ ?_ h
  · rintro w rfl
    exact ⟨nofun, nofun, nofun, nofun, List.nodup_nil⟩
  · intro w e w' hr hw hsound hstep
    exact hw.step (ordered_of_reachable hr.reachable) hsound hstep

/-! ## Responses that come after a logout -/

/-- The event goes on with a call that was made before. -/
def Answers (w : World) : Event → Prop
  | .login_response l _ | .me_response l _ | .resume_login l => w.logins l ≠ none
  | .respond r _ | .resume_request r => w.requests r ≠ none
  | .task_done s _ => w.sequences s ≠ none
  | _ => False

/-- Every call that was there in the state before belongs to an older generation now. -/
structure Past (before w : World) : Prop where
  logins : ∀ l, before.logins l ≠ none → ∃ x, w.logins l = some x ∧
    ∀ a, x.attempt = some a → a.generation < w.controller.generation
  requests : ∀ r, before.requests r ≠ none → ∃ x, w.requests r = some x ∧
    ∀ c, x.context = some c → c.generation < w.controller.generation
  sequences : ∀ s, before.sequences s ≠ none → ∃ x, w.sequences s = some x ∧
    ∀ c, x.context = some c → c.generation < w.controller.generation

/-- A call of an older generation stays one when some call is set: itself, as it goes on, or
another one. -/
theorem put_past {α β : Type} {g f : Nat → Option α} {k : Nat} {new : α} {part : α → Option β}
    {P : β → Prop} (h : ∀ j, g j ≠ none → ∃ x, f j = some x ∧ ∀ b, part x = some b → P b)
    (hnew : g k ≠ none → ∀ b, part new = some b → P b) :
    ∀ j, g j ≠ none → ∃ x, put f k new j = some x ∧ ∀ b, part x = some b → P b := by
  intro j hj
  rcases eq_or_ne j k with rfl | hne
  · exact ⟨new, put_self f j new, hnew hj⟩
  · rw [put_ne f new hne]
    exact h j hj

theorem Past.of_le (h : Past before w) (hle : w.controller.generation ≤ w'.controller.generation)
    (hlogins : w'.logins = w.logins) (hrequests : w'.requests = w.requests)
    (hsequences : w'.sequences = w.sequences) :
    Past before w' where
  logins l hl := by
    obtain ⟨x, hx, hlt⟩ := h.logins l hl
    exact ⟨x, hlogins ▸ hx, fun a ha => Nat.lt_of_lt_of_le (hlt a ha) hle⟩
  requests r hr := by
    obtain ⟨x, hx, hlt⟩ := h.requests r hr
    exact ⟨x, hrequests ▸ hx, fun c hc => Nat.lt_of_lt_of_le (hlt c hc) hle⟩
  sequences s hs := by
    obtain ⟨x, hx, hlt⟩ := h.sequences s hs
    exact ⟨x, hsequences ▸ hx, fun c hc => Nat.lt_of_lt_of_le (hlt c hc) hle⟩

theorem Past.setLogin {old new : Login} {attempt : Attempt} (h : Past before w)
    (hl : w.logins l = some old) (ha : old.attempt = some attempt)
    (hnew : ∀ a, new.attempt = some a → a = attempt) : Past before (w.setLogin l new) := by
  refine { h with logins := put_past h.logins ?_ }
  intro hbefore a hsome
  obtain ⟨x, hx, hlt⟩ := h.logins l hbefore
  rw [hl] at hx
  cases hx
  rw [hnew a hsome]
  exact hlt attempt ha

theorem Past.setRequest {r : Nat} {new : Request} (h : Past before w)
    (hnew : before.requests r ≠ none → ∀ c, new.context = some c →
      c.generation < w.controller.generation) : Past before (w.setRequest r new) :=
  { h with requests := put_past h.requests hnew }

theorem Past.setSequence {s : Nat} {new : Sequence} (h : Past before w)
    (hnew : before.sequences s ≠ none → ∀ c, new.context = some c →
      c.generation < w.controller.generation) : Past before (w.setSequence s new) :=
  { h with sequences := put_past h.sequences hnew }

theorem Past.step (h : Past before w) (hstep : auth_session.step w e = some w') :
    Past before w' := by
  cases effect_of_step hstep with
  | @begun l hl =>
    have hbefore : ¬ before.logins l ≠ none := by
      intro hne
      obtain ⟨x, hx, -⟩ := h.logins l hne
      rw [hl] at hx
      cases hx
    have hold : Past before { w with controller := (beginLogin w.controller).1 } :=
      h.of_le (Nat.le_succ _) rfl rfl rfl
    exact { hold with logins := put_past hold.logins (fun hne => absurd hne hbefore) }
  | login hl ha hnew => exact h.setLogin hl ha hnew
  | @committed l _ _ _ hl hgen =>
    have hset : Past before (w.setLogin l .done) := h.setLogin hl rfl nofun
    exact hset.of_le (Nat.le_refl _) rfl rfl rfl
  | @refused l _ _ _ hl hgen =>
    have hset : Past before (w.setLogin l .done) := h.setLogin hl rfl nofun
    exact hset.of_le (Nat.le_succ _) rfl rfl rfl
  | logout => exact h.of_le (Nat.le_succ _) rfl rfl rfl
  | capture hk => exact { h with }
  | @send r _ _ _ hr hk =>
    refine h.setRequest ?_
    intro hne
    obtain ⟨x, hx, -⟩ := h.requests r hne
    rw [hr] at hx
    cases hx
  | @request e r old new context hr hc hnew =>
    refine h.setRequest ?_
    intro hne c hsome
    obtain ⟨x, hx, hlt⟩ := h.requests r hne
    rw [hr] at hx
    cases hx
    rw [hnew c hsome]
    exact hlt context hc
  | @expired r _ _ _ hr hcurrent =>
    have hset : Past before (w.setRequest r .done) := h.setRequest (fun _ => nofun)
    exact hset.of_le (Nat.le_succ _) rfl rfl rfl
  | @applied r _ _ hr hcurrent =>
    have hset : Past before (w.setRequest r .done) := h.setRequest (fun _ => nofun)
    exact hset.of_le (Nat.le_refl _) rfl rfl rfl
  | @initial s _ _ _ _ hs hk hnew =>
    refine h.setSequence ?_
    intro hne
    obtain ⟨x, hx, -⟩ := h.sequences s hne
    rw [hs] at hx
    cases hx
  | sequence hs => exact h.setSequence (fun _ => nofun)
  | @started s left context _ hs hcurrent =>
    have hset : Past before (w.setSequence s (.running context left)) := by
      refine h.setSequence ?_
      intro hne c hsome
      obtain ⟨x, hx, hlt⟩ := h.sequences s hne
      rw [hs] at hx
      cases hx
      exact hlt c hsome
    exact hset.of_le (Nat.le_refl _) rfl rfl rfl

theorem past_of_logout (h : Ordered w) (hstep : machine.step w .logout = some w') : Past w w' := by
  cases hstep
  refine ⟨?_, ?_, ?_⟩
  · intro l hl
    obtain ⟨x, hx⟩ := Option.ne_none_iff_exists'.mp hl
    exact ⟨x, hx, fun a ha => Nat.lt_succ_of_le (h.attempts l x hx a ha).1⟩
  · intro r hr
    obtain ⟨x, hx⟩ := Option.ne_none_iff_exists'.mp hr
    exact ⟨x, hx, fun c hc => Nat.lt_succ_of_le (h.requests r x hx c hc)⟩
  · intro s hs
    obtain ⟨x, hx⟩ := Option.ne_none_iff_exists'.mp hs
    exact ⟨x, hx, fun c hc => Nat.lt_succ_of_le (h.sequences s x hx c hc)⟩

theorem past_of_later (h : Past before w) (hl : machine.Later w w') : Past before w' := by
  induction hl with
  | refl => exact h
  | next _ hstep ih => exact ih.step hstep

/-- The session, and what has happened to the app, are as they were. -/
def Unchanged (w w' : World) : Prop :=
  w'.controller = w.controller ∧ w'.owner = w.owner ∧ w'.session = w.session ∧ w'.log = w.log

theorem Past.unchanged (h : Past before w) (ha : Answers before e)
    (hstep : auth_session.step w e = some w') : Unchanged w w' := by
  cases effect_of_step hstep with
  | begun => exact ha.elim
  | login => exact ⟨rfl, rfl, rfl, rfl⟩
  | committed hl hgen =>
    obtain ⟨x, hx, hlt⟩ := h.logins _ ha
    rw [hl] at hx
    cases hx
    exact absurd hgen (Nat.ne_of_lt (hlt _ rfl))
  | refused hl hgen =>
    obtain ⟨x, hx, hlt⟩ := h.logins _ ha
    rw [hl] at hx
    cases hx
    exact absurd hgen (Nat.ne_of_lt (hlt _ rfl))
  | logout => exact ha.elim
  | capture => exact ha.elim
  | send => exact ha.elim
  | request => exact ⟨rfl, rfl, rfl, rfl⟩
  | expired hr hcurrent =>
    obtain ⟨x, hx, hlt⟩ := h.requests _ ha
    rw [hr] at hx
    cases hx
    rw [isCurrent_of_lt (hlt _ rfl)] at hcurrent
    cases hcurrent
  | applied hr hcurrent =>
    obtain ⟨x, hx, hlt⟩ := h.requests _ ha
    rw [hr] at hx
    cases hx
    rw [isCurrent_of_lt (hlt _ rfl)] at hcurrent
    cases hcurrent
  | initial => exact ha.elim
  | sequence => exact ⟨rfl, rfl, rfl, rfl⟩
  | started hs hcurrent =>
    obtain ⟨x, hx, hlt⟩ := h.sequences _ ha
    rw [hs] at hx
    cases hx
    rw [isCurrent_of_lt (hlt _ rfl)] at hcurrent
    cases hcurrent

/-! ## A step that is not sound -/

theorem isCurrent_of_empty (h : Ordered w) (hs : w.session = none) (htoken : c.token = some "")
    (hgen : c.generation = w.controller.generation) : isCurrent w.controller c = true :=
  isCurrent_iff.mpr ⟨hgen, htoken.trans (h.no_session hs).symm⟩

theorem step_refused {r : Nat} {applies : Bool} (hr : w.requests r = some (.waiting c applies))
    (hcurrent : isCurrent w.controller c = true) :
    machine.step w (.respond r (.failed 401)) =
      some ((w.setRequest r .done).clear (logout w.controller) (.request c)) := by
  have hinvalid : sessionInvalidated (.failed 401 : Response String) = true := by decide
  change step w (.respond r (.failed 401)) = _
  simp only [step, hr, afterRequest, requestForSession, hinvalid, clearSessionIfCurrent, hcurrent,
    if_true]

theorem step_started {s left : Nat} (hs : w.sequences s = some (.running c (left + 1)))
    (hcurrent : isCurrent w.controller c = true) :
    machine.step w (.task_done s true) =
      some { w.setSequence s (.running c left) with log := .started c w.session :: w.log } := by
  change step w (.task_done s true) = _
  simp only [step, hs, runInitialRequests, hcurrent, Bool.and_self, if_true]

/-- A refusal of such a request clears what is no session, and the next task of such a sequence
starts without one. -/
theorem unjustified_of_unsound {w1 : World} (h : Ordered w) (hsound : ¬ Sound w e)
    (hstep : machine.step w e = some w1) :
    ∃ e' w2 x, machine.step w1 e' = some w2 ∧ w2.log = x :: w1.log ∧ ¬ Justified x := by
  cases e with
  | send r k applies =>
    simp only [Sound, not_forall, not_not] at hsound
    obtain ⟨hs, c, hk, htoken, hgen⟩ := hsound
    have hcurrent := isCurrent_of_empty h hs htoken hgen
    have hstep : step w (.send r k applies) = some w1 := hstep
    simp only [step, hk] at hstep
    rcases hr : w.requests r with _ | x <;> rw [hr] at hstep <;> cases hstep
    have hnext := step_refused (w := w.setRequest r (.waiting c applies)) (put_self _ _ _) hcurrent
    refine ⟨_, _, .cleared (.request c) w.owner w.session, hnext, rfl, ?_⟩
    rw [hs]
    intro hjustified
    cases hjustified
  | initial s k tasks =>
    simp only [Sound, not_forall, not_not] at hsound
    obtain ⟨htasks, hs, c, hk, htoken, hgen⟩ := hsound
    obtain ⟨left, rfl⟩ := Nat.exists_eq_add_of_le' htasks
    have hcurrent := isCurrent_of_empty h hs htoken hgen
    have hstep : step w (.initial s k (left + 2)) = some w1 := hstep
    simp only [step, hk] at hstep
    rcases hr : w.sequences s with _ | x <;> rw [hr] at hstep <;> cases hstep
    have hnext := step_started (w := w.setSequence s (.running c (left + 1))) (put_self _ _ _) hcurrent
    refine ⟨_, _, .started c w.session, hnext, rfl, ?_⟩
    rw [hs]
    intro hjustified
    cases hjustified
  | _ => exact absurd trivial hsound

/-! ## The law of the session -/

/-- In every run of sound steps what happens is justified, the session is the one of the login
begun last, no login is cleared by two responses, and after a logout no response to an earlier
request acts. Any other step leaves the app open to a response that acts without a session. -/
theorem responses_act_for_their_session (w : World) (h : machine.Reach Sound w) :
    (∀ x ∈ w.log, Justified x) ∧
    (∀ s, w.session = some s → w.owner = some s.login) ∧
    (w.log.filterMap ended).Nodup ∧
    (∀ w1 w2 e w3, machine.step w .logout = some w1 → machine.Later w1 w2 → Answers w e →
      machine.step w2 e = some w3 → Unchanged w2 w3) ∧
    (∀ e w1, machine.step w e = some w1 → ¬ Sound w e →
      ∃ e' w2 x, machine.step w1 e' = some w2 ∧ w2.log = x :: w1.log ∧ ¬ Justified x) := by
  have hordered := ordered_of_reachable h.reachable
  have hfair := fair_of_reach h
  refine ⟨hfair.justified, fun s hs => (hordered.session s hs).1, hfair.ended_nodup, ?_, ?_⟩
  · intro w1 w2 e w3 hlogout hlater hanswers hstep
    exact (past_of_later (past_of_logout hordered hlogout) hlater).unchanged hanswers hstep
  · exact fun e w1 hstep hsound => unjustified_of_unsound hordered hsound hstep

instance (w : World) (e : Event) : Decidable (Sound w e) :=
  match e with
  | .send _ k _ =>
    match hk : w.contexts k with
    | none => isTrue (by simp [Sound, hk])
    | some c => decidable_of_iff (w.session = none → c.token = some "" →
        c.generation ≠ w.controller.generation) (by simp [Sound, hk])
  | .initial _ k tasks =>
    match hk : w.contexts k with
    | none => isTrue (by simp [Sound, hk])
    | some c => decidable_of_iff (2 ≤ tasks → w.session = none → c.token = some "" →
        c.generation ≠ w.controller.generation) (by simp [Sound, hk])
  | .login _ | .login_response .. | .me_response .. | .resume_login _ | .logout | .capture ..
  | .respond .. | .resume_request _ | .task_done .. => isTrue trivial

def newApp : World :=
  ⟨createAuthSessionController, none, none, fun _ => none, fun _ => none, fun _ => none,
    fun _ => none, []⟩

/-- Two logins overlap; the mails asked for in the session come, and then a refusal. -/
def twoLogins : List Event :=
  [.login 0, .login 1, .login_response 1 (.ok (some "t1")), .me_response 1 (.ok "bob"),
    .login_response 0 (.ok (some "t0")), .resume_login 1, .capture 0 none, .send 0 0 true,
    .send 1 0 true, .respond 0 (.ok "mails"), .resume_request 0, .respond 1 (.failed 401)]

theorem bob_reads_his_mails : ∃ w, machine.Reach Sound w ∧
    w.log = [.cleared (.request ⟨2, some "t1"⟩) (some 1) (some ⟨1, ⟨2, some "t1"⟩⟩),
      .applied ⟨2, some "t1"⟩ "mails" (some ⟨1, ⟨2, some "t1"⟩⟩),
      .committed 1 ⟨2, some "t1"⟩ "bob" (some 1)] ∧
    (∀ x ∈ w.log, Justified x) ∧ (w.log.filterMap ended).Nodup := by
  have hlog : (machine.runWithin Sound newApp twoLogins).map World.log =
      some [.cleared (.request ⟨2, some "t1"⟩) (some 1) (some ⟨1, ⟨2, some "t1"⟩⟩),
        .applied ⟨2, some "t1"⟩ "mails" (some ⟨1, ⟨2, some "t1"⟩⟩),
        .committed 1 ⟨2, some "t1"⟩ "bob" (some 1)] := by decide +kernel
  obtain ⟨w, hrun, hw⟩ := Option.map_eq_some_iff.mp hlog
  have hreach : machine.Reach Sound w := Machine.Reach.runWithin (.start rfl) hrun
  have hlaw := responses_act_for_their_session w hreach
  exact ⟨w, hreach, hw, hlaw.1, hlaw.2.2.1⟩

/-- A login waits while a request that was made without a session is refused. -/
def refusedElsewhere : List Event :=
  [.login 0, .capture 0 (some ""), .send 0 0 true, .respond 0 (.failed 401)]

theorem a_refusal_clears_another_login : ∃ w, machine.Reachable w ∧
    w.log = [.cleared (.request ⟨1, some ""⟩) (some 0) none] ∧ ¬ ∀ x ∈ w.log, Justified x := by
  have hlog : (machine.run newApp refusedElsewhere).map World.log =
      some [.cleared (.request ⟨1, some ""⟩) (some 0) none] := by decide +kernel
  obtain ⟨w, hrun, hw⟩ := Option.map_eq_some_iff.mp hlog
  refine ⟨w, Machine.reachable_of_run rfl hrun, hw, ?_⟩
  intro hall
  have hjust : Justified (.cleared (.request ⟨1, some ""⟩) (some 0) none) :=
    hall _ (hw ▸ List.mem_singleton_self _)
  change (none : Option Session).map Session.context = some _ at hjust
  cases hjust

end moaworks.auth_session
