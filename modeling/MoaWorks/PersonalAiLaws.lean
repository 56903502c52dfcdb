-- Ready settings are tested settings, in every run in which no settings are replaced between a
-- test and its record, and no save writes a ready status back over a later test.
import MoaWorks.PersonalAi

namespace moaworks.personal_ai

variable {w w' : World} {payload : PersonalAiConfigUpdate} {current : Option ConfigRow}

/-! ## What the runs keep -/

/-- A test of the personal settings succeeded. -/
def Passed (calls : List ProviderCall) (settings : Settings) : Prop :=
  ∃ call ∈ calls, call.use = .test ∧ call.config.configSource = .personal ∧
    call.config.settings = settings ∧ call.outcome.succeeded = true

/-- Ready settings passed a test, and that was the last one recorded. -/
def ReadyTested (w : World) : Prop :=
  ∀ row, w.row = some row → row.connection_status = .ready →
    w.recorded.head? = some ⟨row.settings, true⟩ ∧ Passed w.calls row.settings

/-- Each chat with personal settings came after a test that these settings passed. -/
def ChatsTested (w : World) : Prop :=
  ∀ later call earlier, w.calls = later ++ call :: earlier → call.use ≠ .test →
    call.config.configSource = .personal → Passed earlier call.config.settings

/-- The row still has the settings that a successful test was made with. -/
def RecordMeets (w : World) : Phase → Prop
  | .recording config success _ =>
    success = true → ∀ row, w.row = some row → row.settings = config.settings
  | _ => True

/-- When a save leaves a ready row as it read it, the settings of that row passed the last of the
tests that were recorded since. -/
def SaveMeets (w : World) : Phase → Prop
  | .saving payload (some row) seen =>
    changed (some row) payload = false → row.connection_status = .ready →
      ∀ t, (w.recorded.take (w.recorded.length - seen)).head? = some t → t = ⟨row.settings, true⟩
  | _ => True

def Meets (w : World) : Event → Prop
  | .act r (.record_test _) => RecordMeets w (w.runs r)
  | .act r .save => SaveMeets w (w.runs r)
  | _ => True

theorem Passed.cons {calls : List ProviderCall} {settings : Settings} (h : Passed calls settings)
    (call : ProviderCall) : Passed (call :: calls) settings := by
  obtain ⟨c, hmem, hc⟩ := h
  exact ⟨c, List.mem_cons_of_mem _ hmem, hc⟩

/-- What a request has read or sent is still so. -/
def PhaseInv (w : World) : Phase → Prop
  | .calling use config => config.configSource = .personal → use ≠ .test →
    Passed w.calls config.settings
  | .recording config success _ => success = true → Passed w.calls config.settings
  | .saving _ current seen => seen ≤ w.recorded.length ∧
    ∀ row, current = some row → row.connection_status = .ready →
      (w.recorded.drop (w.recorded.length - seen)).head? = some ⟨row.settings, true⟩
  | _ => True

structure Inv (w : World) : Prop where
  ready : ∀ row, w.row = some row → row.connection_status = .ready →
    w.recorded.head? = some ⟨row.settings, true⟩
  recorded : ∀ t ∈ w.recorded, t.success = true → Passed w.calls t.settings
  runs : ∀ r, PhaseInv w (w.runs r)
  chats : ChatsTested w

theorem Inv.readyTested (h : Inv w) : ReadyTested w := by
  intro row hrow hready
  have hhead := h.ready row hrow hready
  exact ⟨hhead, h.recorded _ (List.mem_of_head? hhead) rfl⟩

theorem drop_seen {α : Type} (t : α) (l : List α) {seen : Nat} (h : seen ≤ l.length) :
    (t :: l).drop ((t :: l).length - seen) = l.drop (l.length - seen) := by
  have hlen : (t :: l).length - seen = (l.length - seen) + 1 := by
    simp only [List.length_cons]
    omega
  rw [hlen, List.drop_succ_cons]

/-! ## Steps -/

/-- A request goes on, and neither the settings nor the logs change. -/
theorem Inv.advance (h : Inv w) (r : Nat) {p : Phase} (hp : PhaseInv w p) :
    Inv (w.advance r p) where
  ready := h.ready
  recorded := h.recorded
  runs := by
    intro k
    by_cases hk : k = r
    · simp only [World.advance, hk, if_true]
      exact hp
    · simp only [World.advance, hk, if_false]
      exact h.runs k
  chats := h.chats

/-- The same logs and settings, other counters and another policy. -/
theorem Inv.same (h : Inv w) (hrow : w'.row = w.row) (hruns : w'.runs = w.runs)
    (hcalls : w'.calls = w.calls) (hrecorded : w'.recorded = w.recorded) : Inv w' := by
  obtain ⟨row, policy, limits, runs, calls, recorded⟩ := w
  obtain ⟨row', policy', limits', runs', calls', recorded'⟩ := w'
  cases hrow
  cases hruns
  cases hcalls
  cases hrecorded
  refine ⟨h.ready, h.recorded, fun r => ?_, h.chats⟩
  exact h.runs r

theorem saved_unchanged {row : ConfigRow} (h : changed (some row) payload = false) :
    (savedRow (some row) payload).settings = row.settings ∧
      (savedRow (some row) payload).connection_status = row.connection_status := by
  have hch := h
  simp only [changed, Bool.or_eq_false_iff, bne_eq_false_iff_eq, Option.isSome_eq_false_iff,
    Option.isNone_iff_eq_none] at hch
  obtain ⟨⟨⟨hprovider, hmodel⟩, hkey⟩, hclear⟩ := hch
  have hsaved : (savedKey (some row) payload).getD "" = row.api_key.getD "" := by
    simp only [savedKey, hkey, hclear, hprovider, Option.map_some, Option.getD_some,
      Option.bind_some]
    cases row.api_key with
    | none => simp
    | some key =>
      by_cases hempty : key = "" <;> simp [Option.filter, hempty]
  simp only [savedRow, h, ConfigRow.settings, hsaved, hprovider, hmodel, and_self]

theorem saved_changed (h : changed current payload = true) :
    (savedRow current payload).connection_status = .untested := by
  cases current with
  | none => rfl
  | some row => simp only [savedRow, h]

/-- What a save writes as ready was ready when it was read, and is not changed. -/
theorem saved_ready (h : (savedRow current payload).connection_status = .ready) :
    ∃ row, current = some row ∧ changed (some row) payload = false ∧
      row.connection_status = .ready ∧ (savedRow current payload).settings = row.settings := by
  cases hch : changed current payload with
  | true =>
    rw [saved_changed hch] at h
    cases h
  | false =>
    cases current with
    | none => cases hch
    | some row =>
      obtain ⟨hsettings, hstatus⟩ := saved_unchanged hch
      exact ⟨row, rfl, hch, hstatus ▸ h, hsettings⟩

/-- The last test is the last of those since the row was read, or the last before. -/
theorem last_since (recorded : List Test) (seen : Nat) :
    recorded.head? = (recorded.take (recorded.length - seen)).head? ∨
      recorded.head? = (recorded.drop (recorded.length - seen)).head? := by
  cases recorded.length - seen with
  | zero => exact .inr rfl
  | succ n => cases recorded <;> exact .inl rfl

theorem head_of_take {α : Type} {l : List α} {n : Nat} {t : α} (h : (l.take n).head? = some t) :
    l.head? = some t := by
  cases n with
  | zero => cases h
  | succ n => cases l <;> exact h

theorem inv_save (h : Inv w) {r : Nat} {seen : Nat} (hrun : w.runs r = .saving payload current seen)
    (hm : Meets w (.act r .save)) : Inv { w with row := some (savedRow current payload) } where
  ready := by
    intro row hrow hready
    cases hrow
    obtain ⟨old, rfl, hch, hold, hsettings⟩ := saved_ready hready
    have hphase := h.runs r
    simp only [hrun, PhaseInv] at hphase
    simp only [Meets, hrun, SaveMeets] at hm
    rw [hsettings]
    have hseen := hphase.2 old rfl hold
    -- the tests since the row was read, if there are any, end with one that its settings passed
    cases htake : (w.recorded.take (w.recorded.length - seen)).head? with
    | some t =>
      have ht := hm hch hold t htake
      rcases last_since w.recorded seen with hlast | hlast
      · exact hlast.trans (htake.trans (congrArg some ht))
      · exact hlast.trans hseen
    | none =>
      rcases last_since w.recorded seen with hlast | hlast
      · rw [htake, List.head?_eq_none_iff] at hlast
        simp only [hlast, List.drop_nil, List.head?_nil] at hseen
        cases hseen
      · exact hlast.trans hseen
  recorded := h.recorded
  runs := h.runs
  chats := h.chats

theorem PhaseInv.called {p : Phase} (h : PhaseInv w p) (call : ProviderCall) :
    PhaseInv { w with calls := call :: w.calls } p := by
  cases p with
  | calling use config => exact fun hpersonal huse => (h hpersonal huse).cons call
  | recording config success code => exact fun hsuccess => (h hsuccess).cons call
  | _ => exact h

theorem chatsTested_cons (h : ChatsTested w) {call : ProviderCall}
    (hcall : call.use ≠ .test → call.config.configSource = .personal →
      Passed w.calls call.config.settings) : ChatsTested { w with calls := call :: w.calls } := by
  intro later c earlier hcalls huse hpersonal
  cases later with
  | nil =>
    obtain ⟨rfl, rfl⟩ := List.cons.inj hcalls
    exact hcall huse hpersonal
  | cons first later => exact h later c earlier (List.cons.inj hcalls).2 huse hpersonal

theorem inv_called (h : Inv w) {call : ProviderCall}
    (hcall : call.use ≠ .test → call.config.configSource = .personal →
      Passed w.calls call.config.settings) : Inv { w with calls := call :: w.calls } where
  ready := h.ready
  recorded := fun t ht hsuccess => (h.recorded t ht hsuccess).cons call
  runs := fun r => (h.runs r).called call
  chats := chatsTested_cons h.chats hcall

theorem PhaseInv.recorded {p : Phase} (h : PhaseInv w p) (t : Test) (row : Option ConfigRow) :
    PhaseInv { w with row := row, recorded := t :: w.recorded } p := by
  cases p with
  | saving payload current seen =>
    refine ⟨Nat.le_succ_of_le h.1, fun old hold hready => ?_⟩
    rw [drop_seen t w.recorded h.1]
    exact h.2 old hold hready
  | _ => exact h

theorem inv_recorded (h : Inv w) {r : Nat} {config : Config} {success : Bool} {code : String}
    (hrun : w.runs r = .recording config success code) (now : Time)
    (hm : Meets w (.act r (.record_test now))) :
    Inv { w with
      row := w.row.map (testedRow success code now)
      recorded := ⟨config.settings, success⟩ :: w.recorded } where
  ready := by
    intro row hrow hready
    simp only [Meets, hrun, RecordMeets] at hm
    obtain ⟨old, hold, rfl⟩ := Option.map_eq_some_iff.mp hrow
    cases success with
    | false => simp [testedRow] at hready
    | true =>
      have hsettings : (testedRow true code now old).settings = config.settings := hm rfl old hold
      simp only [List.head?_cons, hsettings]
  recorded := by
    intro t ht hsuccess
    have hphase := h.runs r
    simp only [hrun, PhaseInv] at hphase
    rcases List.mem_cons.mp ht with rfl | ht
    · exact hphase hsuccess
    · exact h.recorded t ht hsuccess
  runs := fun k => (h.runs k).recorded _ _
  chats := h.chats

/-- A chat goes on only with settings that are ready. -/
theorem proceed_inv (use : Use) {config : Config}
    (h : config.configSource = .personal → config.connectionStatus = .ready →
      Passed w.calls config.settings) : PhaseInv w (proceed use config) := by
  unfold proceed
  split
  · trivial
  · cases use with
    | test => exact fun _ huse => (huse rfl).elim
    | chat messages =>
      simp only
      split_ifs with hready
      · exact fun hpersonal _ => h hpersonal hready
      · trivial

theorem companyConfig_source (policy : Policy) : (companyConfig policy).configSource ≠ .personal := by
  unfold companyConfig
  split_ifs <;> exact fun h => by cases h

theorem inv_turn (h : Inv w) {r : Nat} {a : Act} (hm : Meets w (.act r a))
    (hstep : turn w r a = some w') : Inv w' := by
  unfold turn at hstep
  split at hstep
  case h_1 payload hrun =>
    split_ifs at hstep <;> cases hstep
    · refine h.advance r ⟨le_refl _, fun row hrow hready => ?_⟩
      rw [Nat.sub_self, List.drop_zero]
      exact h.ready row hrow hready
    · exact h.advance r trivial
  case h_2 payload current seen hrun =>
    cases hstep
    exact (inv_save h hrun hm).advance r trivial
  case h_3 use now hrun =>
    simp only at hstep
    split_ifs at hstep <;> cases hstep
    · exact (h.advance r (p := .done _) trivial).same rfl rfl rfl rfl
    · exact (h.advance r (p := .limited use) trivial).same rfl rfl rfl rfl
  case h_4 use hrun =>
    split at hstep <;> cases hstep
    · rename_i row hrow
      refine h.advance r (proceed_inv use fun _ hready => ?_)
      exact (h.readyTested row (Option.filter_eq_some_iff.mp hrow).1 hready).2
    · exact h.advance r trivial
  case h_5 use hrun =>
    cases hstep
    exact h.advance r (proceed_inv use fun hp => (companyConfig_source _ hp).elim)
  case h_6 use config outcome hrun =>
    have hphase := h.runs r
    simp only [hrun, PhaseInv] at hphase
    have hcalled : Inv { w with calls := ⟨use, config, outcome⟩ :: w.calls } :=
      inv_called h fun huse hpersonal => hphase hpersonal huse
    cases use with
    | test =>
      cases hstep
      refine hcalled.advance r ?_
      unfold afterTest
      by_cases hpersonal : config.configSource = .personal
      · rw [if_pos hpersonal]
        exact fun hsuccess => ⟨_, List.mem_cons_self, rfl, hpersonal, rfl, hsuccess⟩
      · rw [if_neg hpersonal]
        trivial
    | chat messages =>
      cases hstep
      refine hcalled.advance r ?_
      cases outcome <;> trivial
  case h_7 config success code now hrun =>
    cases hstep
    exact (inv_recorded h hrun now hm).advance r trivial
  case h_8 => cases hstep
  case h_9 => cases hstep
  case h_10 =>
    cases hstep
    exact h.advance r trivial
  case h_11 => cases hstep

theorem inv_step (h : Inv w) {e : Event} (hm : Meets w e) (hstep : step w e = some w') :
    Inv w' := by
  cases e with
  | start r call =>
    unfold step at hstep
    simp only at hstep
    split at hstep <;> cases hstep
    exact h.advance r trivial
  | act r a => exact inv_turn h hm hstep
  | update_policy policy =>
    cases hstep
    exact h.same rfl rfl rfl rfl

theorem inv_reach (h : machine.Reach Meets w) : Inv w := by
  refine h.invariant (I := Inv) ?_ (fun _ _ _ _ hinv hm hstep => inv_step hinv hm hstep)
  rintro w ⟨hrow, hcalls, hrecorded, hruns⟩
  refine ⟨?_, ?_, fun r => ?_, ?_⟩
  · intro row hsome
    rw [hrow] at hsome
    cases hsome
  · intro t ht
    rw [hrecorded] at ht
    cases ht
  · rw [hruns r]
    trivial
  · intro later call earlier hlog
    rw [hcalls] at hlog
    cases later <;> cases hlog

/-! ## The law, and where it ends -/

theorem saveMeets_of_readyTested (seen : Nat)
    (h : ReadyTested { w with row := some (savedRow current payload) }) :
    SaveMeets w (.saving payload current seen) := by
  cases current with
  | none => trivial
  | some row =>
    intro hch hstatus t ht
    obtain ⟨hsettings, hsaved⟩ := saved_unchanged hch
    have hhead := (h _ rfl (hsaved.trans hstatus)).1
    rw [hsettings] at hhead
    have hlast := head_of_take ht
    exact Option.some.inj (hlast.symm.trans hhead)

theorem recordMeets_of_readyTested {config : Config} {success : Bool} {code : String} {now : Time}
    (h : ReadyTested { w with
      row := w.row.map (testedRow success code now)
      recorded := ⟨config.settings, success⟩ :: w.recorded }) :
    RecordMeets w (.recording config success code) := by
  intro hsuccess row hrow
  have hhead := (h (testedRow success code now row) (by simp [hrow])
    (by simp [testedRow, hsuccess])).1
  exact (congrArg Test.settings (Option.some.inj hhead)).symm

/-- A step after which the property holds meets the condition. -/
theorem meets_of_readyTested {e : Event} (hstep : step w e = some w') (h : ReadyTested w') :
    Meets w e := by
  cases e with
  | start r call => trivial
  | update_policy policy => trivial
  | act r a =>
    cases a with
    | save =>
      change SaveMeets w (w.runs r)
      cases hrun : w.runs r with
      | saving payload current seen =>
        simp only [step, turn, hrun, Option.some.injEq] at hstep
        subst hstep
        exact saveMeets_of_readyTested (w := w) seen h
      | _ => trivial
    | record_test now =>
      change RecordMeets w (w.runs r)
      cases hrun : w.runs r with
      | recording config success code =>
        simp only [step, turn, hrun, Option.some.injEq] at hstep
        subst hstep
        exact recordMeets_of_readyTested h
      | _ => trivial
    | _ => trivial

/-- In a run whose steps all meet the condition, the ready settings are those of the last test,
which they passed, and chats with personal settings use none that are untested. The first step that
misses the condition ends this. -/
theorem ready_settings_are_tested {w : World} (h : machine.Reach Meets w) :
    (ReadyTested w ∧ ChatsTested w) ∧
      ∀ e w', machine.step w e = some w' → ((ReadyTested w' ∧ ChatsTested w') ↔ Meets w e) := by
  have hinv := inv_reach h
  refine ⟨⟨hinv.readyTested, hinv.chats⟩, fun e w' hstep => ⟨fun hholds => ?_, fun hm => ?_⟩⟩
  · exact meets_of_readyTested hstep hholds.1
  · have hinv' := inv_step hinv hm hstep
    exact ⟨hinv'.readyTested, hinv'.chats⟩

/-! ## A tested key, and one that is not -/

instance (w : World) : (p : Phase) → Decidable (RecordMeets w p)
  | .recording config success _ => inferInstanceAs
      (Decidable (success = true → ∀ row ∈ w.row, row.settings = config.settings))
  | .idle | .begun _ | .saving .. | .limited _ | .defaulting _ | .calling .. | .done _ => isTrue trivial

instance (w : World) : (p : Phase) → Decidable (SaveMeets w p)
  | .saving payload (some row) seen => inferInstanceAs
      (Decidable (changed (some row) payload = false → row.connection_status = .ready →
        ∀ t ∈ (w.recorded.take (w.recorded.length - seen)).head?, t = ⟨row.settings, true⟩))
  | .saving _ none _ => isTrue trivial
  | .idle | .begun _ | .limited _ | .defaulting _ | .calling .. | .recording .. | .done _ =>
    isTrue trivial

instance (w : World) : (e : Event) → Decidable (Meets w e)
  | .act r (.record_test _) => inferInstanceAs (Decidable (RecordMeets w (w.runs r)))
  | .act r .save => inferInstanceAs (Decidable (SaveMeets w (w.runs r)))
  | .start .. | .update_policy _ => isTrue trivial
  | .act _ .fetch | .act _ (.acquire_rate_limit _) | .act _ .read_config | .act _ .read_policy
  | .act _ (.provider _) | .act _ .abort => isTrue trivial

instance (calls : List ProviderCall) (settings : Settings) : Decidable (Passed calls settings) :=
  inferInstanceAs (Decidable (∃ call ∈ calls, call.use = .test ∧
    call.config.configSource = .personal ∧ call.config.settings = settings ∧
    call.outcome.succeeded = true))

def noPolicy : Policy := ⟨false, ⟨"disabled", "", ""⟩, "", 15⟩

def newUser : World := ⟨none, noPolicy, fun _ => 0, fun _ => .idle, [], []⟩

theorem start_newUser : machine.Start newUser := ⟨rfl, rfl, rfl, fun _ => rfl⟩

def withKey (key : String) (h : some key ≠ some "" := by decide) : PersonalAiConfigUpdate :=
  ⟨"openai", "gpt-4o", some key, false, by decide, by decide, h, fun both => by cases both.2⟩

/-- The same settings again, and no key. -/
def withoutKey : PersonalAiConfigUpdate :=
  ⟨"openai", "gpt-4o", none, false, by decide, by decide, by decide, by decide⟩

def saves (r : Nat) (payload : PersonalAiConfigUpdate) : List Event :=
  [.start r (.update_config payload), .act r .fetch, .act r .save]

/-- A test or a chat, up to the call of the provider. -/
def asks (r : Nat) (use : Use) (outcome : Outcome) : List Event :=
  [.start r (.request use), .act r (.acquire_rate_limit 0), .act r .read_config,
    .act r (.provider outcome)]

def records (r : Nat) : List Event := [.act r (.record_test 0)]

def hello : Use := .chat [⟨"user", "hello"⟩]

def after (events : List Event) : World := (machine.run newUser events).getD newUser

theorem reachable_after (events : List Event) (h : (machine.run newUser events).isSome = true) :
    machine.Reachable (after events) := by
  obtain ⟨w, hw⟩ := Option.isSome_iff_exists.mp h
  have hafter : after events = w := by simp only [after, hw, Option.getD_some]
  rw [hafter]
  exact Machine.reachable_of_run start_newUser hw

/-- The key is replaced between its test and the record of the test. -/
def replaced : List Event :=
  saves 0 (withKey "first") ++ asks 1 .test (.output "ok") ++ saves 2 (withKey "second") ++
    records 1 ++ asks 3 hello (.output "hi")

/-- A save that changes nothing reads the row before a test that fails, and writes it after. -/
def writtenBack : List Event :=
  saves 0 (withKey "first") ++ asks 1 .test (.output "ok") ++ records 1 ++
    [.start 2 (.update_config withoutKey), .act 2 .fetch] ++ asks 3 .test .failed ++ records 3 ++
    [.act 2 .save]

def keyed (key : String) : Settings := ⟨"openai", "gpt-4o", key⟩

/-- The call of the provider with a key, as `asks` makes it. -/
def callWith (use : Use) (key : String) (status : ConnectionStatus) (text : String) :
    ProviderCall :=
  ⟨use, ⟨keyed key, status, .personal, "", none⟩, .output text⟩

/-- A chat is sent with a key that no test was made with, and a row is ready whose last test
failed. -/
theorem untested_keys_are_used :
    (∃ w, machine.Reachable w ∧ ¬ ReadyTested w ∧ ¬ ChatsTested w) ∧
      ∃ w, machine.Reachable w ∧ w.recorded.head? = some ⟨keyed "first", false⟩ ∧
        ¬ ReadyTested w := by
  refine ⟨⟨_, reachable_after replaced (by decide +kernel), fun h => ?_, fun h => ?_⟩,
    ⟨_, reachable_after writtenBack (by decide +kernel), by decide +kernel, fun h => ?_⟩⟩
  · have hrow : (after replaced).row = some ⟨"openai", "gpt-4o", some "second", .ready,
        some "PERSONAL_AI_CONNECTION_READY", some 0⟩ := by decide +kernel
    have hlast : (after replaced).recorded.head? = some ⟨keyed "first", true⟩ := by decide +kernel
    exact absurd (hlast.symm.trans (h _ hrow rfl).1) (by decide)
  · have hcalls : (after replaced).calls = [callWith hello "second" .ready "hi",
        callWith .test "first" .untested "ok"] := by decide +kernel
    exact absurd (h [] _ _ hcalls (by decide) rfl) (by decide)
  · have hrow : (after writtenBack).row = some ⟨"openai", "gpt-4o", some "first", .ready,
        some "PERSONAL_AI_CONNECTION_READY", some 0⟩ := by decide +kernel
    have hlast : (after writtenBack).recorded.head? = some ⟨keyed "first", false⟩ := by
      decide +kernel
    exact absurd (hlast.symm.trans (h _ hrow rfl).1) (by decide)

/-- The key is tested, and then the chat uses it. -/
def chatted : World :=
  (machine.runWithin Meets newUser (saves 0 (withKey "first") ++
    asks 1 .test (.output "ok") ++ records 1 ++ asks 2 hello (.output "hi"))).get
      (by decide)

theorem first_key_is_tested : chatted.calls.length = 2 ∧
    (ReadyTested chatted ∧ ChatsTested chatted) ∧
      ∀ e w', machine.step chatted e = some w' →
        ((ReadyTested w' ∧ ChatsTested w') ↔ Meets chatted e) :=
  ⟨by decide +kernel, ready_settings_are_tested
    ((Machine.Reach.start start_newUser).runWithin (Option.some_get _).symm)⟩

end moaworks.personal_ai
