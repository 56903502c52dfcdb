-- The calls on provider rows as transactions that overlap statement by
-- statement, and what holds in between: a provider that sends was tested
-- with the settings that it has.
import MoaWorks.DeliveryWorker
import MoaWorks.ProviderConfigs
import MoaWorks.Lib.Locks
import MoaWorks.Lib.Machine

namespace moaworks.mail_provider_configs

/-! ## Calls and sessions -/

/-- A call of one of the operations, with its company. `generate_self_hosted_dkim`
also has what it takes from outside the row: the month of its default
selector, the mail domain of the company and a fresh key. -/
inductive Call
  | delivery_update (company : String) (values : DeliveryValues)
  | delivery_test (company : String)
  | admin_update (company provider_key : String) (values : AdminValues)
  | admin_test (company provider_key : String)
  | generate_self_hosted_dkim (company : String) (selector : Option String) (month : String)
      (mail_domain : Option String) (private_pem : String)
  deriving DecidableEq, Repr

namespace Call

def company : Call → String
  | delivery_update company _ | delivery_test company | admin_update company _ _
  | admin_test company _ | generate_self_hosted_dkim company _ _ _ _ => company

/-- The argument of `_find_provider`. The delivery API asks for the active row instead. -/
def provider_key : Call → Option String
  | delivery_update _ _ | delivery_test _ => none
  | admin_update _ provider_key _ | admin_test _ provider_key => some provider_key
  | generate_self_hosted_dkim _ _ _ _ _ => some "self_hosted"

def isTest : Call → Bool
  | delivery_test _ | admin_test _ _ => true
  | _ => false

/-- The advisory lock of `update_provider`: one for each company and provider type. -/
def advisory : Call → Option (String × String)
  | admin_update company provider_key _ =>
    if (_PROVIDER_TYPES provider_key).isSome then some (company, provider_key) else none
  | _ => none

/-- The checks of a call before it looks for the row. -/
def refused : Call → Option String
  | generate_self_hosted_dkim _ selector month mail_domain _ =>
    if validSelector (normalized_selector selector month) = false then
      some "DKIM selector 형식이 올바르지 않습니다."
    else if mail_domain = none then some "먼저 메일 도메인 설정을 저장해야 합니다."
    else none
  | _ => none

/-- The WHERE clause of the first SELECT of a call. -/
def selects (call : Call) (row : ProviderRow) : Bool :=
  decide (row.company_id = call.company) &&
    match call.provider_key with
    | none => row.active
    | some key =>
      match _PROVIDER_TYPES key with
      | some types => decide (row.provider_type ∈ types)
      | none => decide (row.id = key)

/-- The error when this SELECT gives no row, or several. -/
def unfound (call : Call) (several : Bool) : Option String :=
  match call.provider_key with
  | none => some "회사의 활성 발송 Provider가 정확히 하나여야 합니다."
  | some key =>
    if several then some "같은 타입의 Provider가 중복됩니다. 명시적 Provider ID를 선택하세요."
    else if _PROVIDER_TYPES key = none then some "회사에 해당하는 Provider ID를 찾을 수 없습니다."
    else
      match call with
      | admin_test _ _ => some "테스트할 Provider 설정이 없습니다."
      | generate_self_hosted_dkim _ _ _ _ _ => some "자체 메일 엔진 Provider 설정이 없습니다."
      | _ => none

/-- The text that a test writes when the probe fails. -/
def failed_message : Call → String
  | delivery_test _ => "연결 검증 실패 (메일 미전송)"
  | _ => "SMTP 연결 검증 실패 (메일 미전송)"

end Call

/-- Where a session is in its call. From `holding` on it has the lock of the row. -/
inductive Session
  | idle (answer : Option (Except String ProviderRow))
  | called (call : Call)
  /-- The delivery API has read the active row, without a lock. -/
  | resolved (call : Call) (current : ProviderRow)
  /-- After `SELECT … FOR UPDATE`, or after the INSERT of a new row. -/
  | holding (call : Call) (row : ProviderRow)
  | probed (call : Call) (row : ProviderRow) (outcome : Except ProbeError String)
  /-- After the UPDATE, before the commit. -/
  | written (row : ProviderRow)

/-- The row that the session has locked, as it sees it. -/
def Session.held : Session → Option ProviderRow
  | .holding _ row | .probed _ row _ | .written row => some row
  | _ => none

/-- The committed rows, the locks, the sessions, and the successful
connection tests: the row and the settings of each, newest first. -/
structure World where
  rows : String → Option ProviderRow
  locks : Locks String Nat
  advisory : Locks (String × String) Nat
  sessions : Nat → Session
  tests : List (String × Settings)

/-- The settings that the most recent successful test of a row was run against. -/
def lastTested (tests : List (String × Settings)) (id : String) : Option Settings :=
  (tests.find? (fun t => decide (t.1 = id))).map (·.2)

@[simp] theorem lastTested_cons_self (tests : List (String × Settings)) (id : String)
    (settings : Settings) : lastTested ((id, settings) :: tests) id = some settings := by
  simp [lastTested]

theorem lastTested_cons_ne (tests : List (String × Settings)) {id other : String}
    (settings : Settings) (h : other ≠ id) :
    lastTested ((other, settings) :: tests) id = lastTested tests id := by
  simp [lastTested, h]

namespace World

def put (w : World) (t : Nat) (session : Session) : World :=
  { w with sessions := fun u => if u = t then session else w.sessions u }

/-- The end of a transaction, by its commit or by a rollback. -/
def finish (w : World) (t : Nat) (answer : Option (Except String ProviderRow)) : World :=
  { w.put t (.idle answer) with
    locks := w.locks.release t
    advisory := w.advisory.release t }

def hold (w : World) (t : Nat) (id : String) (session : Session) : World :=
  { w.put t session with locks := w.locks.take t id }

end World

/-! ## The statements -/

structure Security where
  /-- The cipher text also depends on a fresh vector. -/
  encrypt_secret : Nat → String → String
  decrypt_secret : String → Option String

/-- What session `t` does next. A SELECT gives one of the rows that match when
it has their locks, or it finds none or several: which of these depends on
when it began to wait, so each of them is an action. -/
inductive Action
  | begin (t : Nat) (call : Call)
  | advise (t : Nat)
  | select (t : Nat) (id : String)
  | unfound (t : Nat) (several : Bool)
  | insert (t : Nat) (id : String) (now : Time) (iv : Nat)
  | lock (t : Nat)
  | probe (t : Nat) (relay : Relay)
  | write (t : Nat) (now : Time) (iv iv' : Nat)
  | commit (t : Nat)
  | abort (t : Nat)
  deriving DecidableEq, Repr

variable (security : Security)

/-- The first SELECT of a call: plain in the delivery API, else `FOR UPDATE`. -/
def select (w : World) (t : Nat) (id : String) : Option World :=
  match w.sessions t, w.rows id with
  | .called call, some row =>
    if call.advisory.all (fun k => decide (w.advisory.holder k = some t)) = false then none
    else match call.refused with
      | some message => some (w.finish t (some (.error message)))
      | none =>
        if call.selects row = false then none
        else if call.provider_key = none then some (w.put t (.resolved call row))
        else if w.locks.open_to t id then some (w.hold t id (.holding call row))
        else none
  | _, _ => none

/-- The second SELECT of the delivery API's test. -/
def lock (w : World) (t : Nat) : Option World :=
  match w.sessions t with
  | .resolved (.delivery_test company) current =>
    match w.rows current.id with
    | none => some (w.finish t (some (.error "활성 Provider가 변경되었습니다. 다시 확인하세요.")))
    | some row =>
      if row.company_id ≠ company then
        some (w.finish t (some (.error "활성 Provider가 변경되었습니다. 다시 확인하세요.")))
      else if w.locks.open_to t current.id = false then none
      else if row.active then
        some (w.hold t current.id (.holding (.delivery_test company) row))
      else some (w.finish t (some (.error "활성 Provider가 변경되었습니다. 다시 확인하세요.")))
  | _ => none

/-- `_create_locked_provider`, under a fresh key. -/
def insert (w : World) (t : Nat) (id : String) (now : Time) (iv : Nat) : Option World :=
  match w.sessions t with
  | .called (.admin_update company provider_key values) =>
    if w.advisory.holder (company, provider_key) = some t ∧ w.rows id = none ∧
        w.locks.open_to t id = true then
      some (w.hold t id (.holding (.admin_update company provider_key values)
        (_create_locked_provider id company provider_key values (security.encrypt_secret iv) now)))
    else none
  | _ => none

def probe (w : World) (t : Nat) (relay : Relay) : Option World :=
  match w.sessions t with
  | .holding call row =>
    if call.isTest then
      let outcome := probe_smtp_connection row.toSettings security.decrypt_secret relay
      let tests := match outcome with
        | .ok _ => (row.id, row.toSettings) :: w.tests
        | .error _ => w.tests
      some { w.put t (.probed call row outcome) with tests := tests }
    else none
  | _ => none

/-- The UPDATE of the delivery API: it waits for the row lock only now, and
its SET clause comes from the row that was read before. -/
def write_unlocked (w : World) (t : Nat) (company : String) (values : DeliveryValues)
    (current : ProviderRow) (now : Time) (iv : Nat) : Option World :=
  match prepare_provider_update current values (security.encrypt_secret iv) with
  | .error message => some (w.finish t (some (.error message)))
  | .ok updates =>
    if updates = {} then some (w.finish t (some (.ok current)))
    else match w.rows current.id with
      | none => some (w.finish t (some (.error "메일 provider를 찾을 수 없습니다.")))
      | some row =>
        if row.company_id ≠ company then
          some (w.finish t (some (.error "메일 provider를 찾을 수 없습니다.")))
        else if w.locks.open_to t current.id then
          some (w.hold t current.id (.written (updates.apply now row)))
        else none

/-- The new version of a locked row, or the error of the call. -/
def newVersion (call : Call) (row : ProviderRow) (now : Time) (iv iv' : Nat) :
    Except String ProviderRow :=
  match call with
  | .admin_update _ _ values =>
    match provider_updates row values (security.encrypt_secret iv)
        (security.encrypt_secret iv') with
    | .error message => .error message
    | .ok updates => .ok (if updates = {} then row else updates.apply now row)
  | .generate_self_hosted_dkim _ selector month mail_domain private_pem =>
    if (given row.encrypted_dkim_private_key).isSome then
      .error "DKIM 키가 이미 설정되어 있어 자동으로 덮어쓸 수 없습니다."
    else
      .ok ((dkim_updates (mail_domain.getD "") (normalized_selector selector month)
        (security.encrypt_secret iv private_pem)).apply now row)
  | _ => .ok row

def write (w : World) (t : Nat) (now : Time) (iv iv' : Nat) : Option World :=
  match w.sessions t with
  | .resolved (.delivery_update company values) current =>
    write_unlocked security w t company values current now iv
  | .holding call row =>
    if call.isTest then none
    else match newVersion security call row now iv iv' with
      | .error message => some (w.finish t (some (.error message)))
      | .ok row' => some (w.put t (.written row'))
  | .probed call row outcome =>
    some (w.put t (.written ((test_updates call.failed_message outcome now).apply now row)))
  | _ => none

def commit (w : World) (t : Nat) : Option World :=
  match w.sessions t with
  | .written row =>
    some { w.finish t (some (.ok row)) with
      rows := fun id => if id = row.id then some row else w.rows id }
  | _ => none

def step (w : World) : Action → Option World
  | .begin t call =>
    match w.sessions t with
    | .idle _ => some (w.put t (.called call))
    | _ => none
  | .advise t =>
    match w.sessions t with
    | .called call =>
      match call.advisory with
      | some k =>
        if w.advisory.open_to t k then some { w with advisory := w.advisory.take t k } else none
      | none => none
    | _ => none
  | .select t id => select w t id
  | .unfound t several =>
    match w.sessions t with
    | .called call => (call.unfound several).map (fun m => w.finish t (some (.error m)))
    | _ => none
  | .insert t id now iv => insert security w t id now iv
  | .lock t => lock w t
  | .probe t relay => probe security w t relay
  | .write t now iv iv' => write security w t now iv iv'
  | .commit t => commit w t
  | .abort t => some (w.finish t none)

/-- A start: no call runs, and a row with a successful test has the settings of that test. -/
structure Start (w : World) : Prop where
  keyed : ∀ id row, w.rows id = some row → row.id = id
  quiet : ∀ t, ∃ answer, w.sessions t = .idle answer
  tested : ∀ id row, w.rows id = some row → row.last_test_status = .success →
    lastTested w.tests id = some row.toSettings

def machine : Machine World Action where
  Start := Start
  step := step security

/-! ## What one statement does -/

/-- The statements `a` of session `t`, by what they do to the rows. -/
inductive Does (w : World) (t : Nat) (a : Action) : World → Prop
  /-- The session reads, waits or ends, and has no row of its own after it. -/
  | quiet {w' : World} (hrows : w'.rows = w.rows) (htests : w'.tests = w.tests)
      (hself : (w'.sessions t).held = none) (hother : ∀ u, u ≠ t → w'.sessions u = w.sessions u)
      (hlocks : ∀ u k, u ≠ t → w.locks.holder k = some u → w'.locks.holder k = some u) :
      Does w t a w'
  /-- It locks a row and reads it, or inserts one. -/
  | locks (call : Call) (row : ProviderRow) (hopen : w.locks.open_to t row.id = true)
      (hrow : w.rows row.id = some row ∨
        (w.rows row.id = none ∧ row.last_test_status = .untested)) :
      Does w t a (w.hold t row.id (.holding call row))
  /-- The UPDATE of the delivery API, from the row that it read before. -/
  | overwrites (company : String) (values : DeliveryValues) (current row : ProviderRow)
      (updates : Updates) (now : Time) (iv iv' : Nat) (ha : a = .write t now iv iv')
      (hs : w.sessions t = .resolved (.delivery_update company values) current)
      (hu : prepare_provider_update current values (security.encrypt_secret iv) = .ok updates)
      (hrow : w.rows current.id = some row) (hopen : w.locks.open_to t current.id = true) :
      Does w t a (w.hold t current.id (.written (updates.apply now row)))
  | probes (call : Call) (row : ProviderRow) (outcome : Except ProbeError String)
      (tests : List (String × Settings)) (hs : w.sessions t = .holding call row)
      (hok : ∀ message, outcome = .ok message → tests = (row.id, row.toSettings) :: w.tests)
      (hfail : ∀ e, outcome = .error e → tests = w.tests) :
      Does w t a { w.put t (.probed call row outcome) with tests := tests }
  /-- The UPDATE of a locked row: a row with a successful test after it had
  it before, or was just probed, and its settings are the same. -/
  | writes (row row' : ProviderRow) (hheld : (w.sessions t).held = some row)
      (hid : row'.id = row.id)
      (hkeep : row'.last_test_status = .success → row'.toSettings = row.toSettings ∧
        (row.last_test_status = .success ∨
          ∃ call message, w.sessions t = .probed call row (.ok message))) :
      Does w t a (w.put t (.written row'))
  | commits (row : ProviderRow) (hs : w.sessions t = .written row) :
      Does w t a { w.finish t (some (.ok row)) with
        rows := fun id => if id = row.id then some row else w.rows id }

/-- The session that an action is about. -/
def Action.session : Action → Nat
  | .begin t _ | .advise t | .select t _ | .unfound t _ | .insert t _ _ _ | .lock t
  | .probe t _ | .write t _ _ _ | .commit t | .abort t => t

section Sessions

variable (w : World) (t : Nat)

@[simp] theorem put_self (session : Session) : (w.put t session).sessions t = session := by
  simp [World.put]

theorem put_other (session : Session) {u : Nat} (h : u ≠ t) :
    (w.put t session).sessions u = w.sessions u := by
  simp [World.put, h]

end Sessions

variable {security} {w w' : World} {t : Nat} {a : Action}

theorem does_put {session : Session} (h : session.held = none) :
    Does security w t a (w.put t session) := by
  apply Does.quiet
  · rfl
  · rfl
  · simpa using h
  · intro u hu
    exact put_other w t session hu
  · intro u k _ hk
    exact hk

theorem does_finish (answer : Option (Except String ProviderRow)) :
    Does security w t a (w.finish t answer) := by
  apply Does.quiet
  · rfl
  · rfl
  · simp [World.finish, World.put, Session.held]
  · intro u hu
    exact put_other w t _ hu
  · intro u k hu hk
    exact Locks.holder_release.2 ⟨hk, hu⟩

theorem select_does {id : String} (hkey : ∀ row, w.rows id = some row → row.id = id)
    (h : select w t id = some w') : Does security w t a w' := by
  unfold select at h
  split at h
  · rename_i call row hs hrow
    have hid : row.id = id := hkey row hrow
    split at h
    · cases h
    · split at h
      · cases h
        exact does_finish _
      · split_ifs at h with hsel hkind hopen
        · cases h
          exact does_put rfl
        · cases h
          subst hid
          exact .locks call row hopen (Or.inl hrow)
  · cases h

theorem lock_does (hkey : ∀ id row, w.rows id = some row → row.id = id)
    (h : lock w t = some w') : Does security w t a w' := by
  unfold lock at h
  split at h
  · rename_i company current hs
    split at h
    · cases h
      exact does_finish _
    · rename_i row hrow
      have hid : row.id = current.id := hkey _ _ hrow
      split_ifs at h with hcompany hopen hactive
      · cases h
        exact does_finish _
      · cases h
        rw [← hid] at hrow hopen ⊢
        exact .locks _ row (by simpa using hopen) (Or.inl hrow)
      · cases h
        exact does_finish _
  · cases h

theorem insert_does {id : String} {now : Time} {iv : Nat}
    (h : insert security w t id now iv = some w') : Does security w t a w' := by
  unfold insert at h
  split at h
  · rename_i company provider_key values hs
    split_ifs at h with hc
    obtain ⟨_, hnone, hopen⟩ := hc
    cases h
    exact .locks _ _ hopen (Or.inr ⟨hnone, rfl⟩)
  · cases h

theorem probe_does {relay : Relay} (h : probe security w t relay = some w') :
    Does security w t a w' := by
  unfold probe at h
  split at h
  · rename_i call row hs
    split_ifs at h
    cases h
    apply Does.probes call row _ _ hs
    · intro message hm
      rw [hm]
    · intro e he
      rw [he]
  · cases h

/-- An UPDATE of a locked row with the settings of the request: it resets the
test, or it writes the settings that the row has. -/
theorem newVersion_keeps {call : Call} {row row' : ProviderRow} {now : Time} {iv iv' : Nat}
    (h : newVersion security call row now iv iv' = .ok row') :
    row'.id = row.id ∧ (row'.last_test_status = .success →
      row'.toSettings = row.toSettings ∧ row.last_test_status = .success) := by
  unfold newVersion at h
  split at h
  · split at h
    · cases h
    · rename_i updates hu
      cases h
      split_ifs with hempty
      · exact ⟨rfl, fun hs => ⟨rfl, hs⟩⟩
      · refine ⟨rfl, fun hs => ?_⟩
        rw [Updates.apply_last_test_status] at hs
        rcases provider_updates_cases hu with hreset | ⟨hleft, hsame⟩
        · simp [hreset] at hs
        · rw [hleft] at hs
          exact ⟨hsame, hs⟩
  · split_ifs at h
    cases h
    exact ⟨rfl, fun hs => by simp [dkim_updates] at hs⟩
  · cases h
    exact ⟨rfl, fun hs => ⟨rfl, hs⟩⟩

theorem write_unlocked_does {company : String} {values : DeliveryValues} {current : ProviderRow}
    {now : Time} {iv iv' : Nat}
    (hs : w.sessions t = .resolved (.delivery_update company values) current)
    (h : write_unlocked security w t company values current now iv = some w') :
    Does security w t (.write t now iv iv') w' := by
  unfold write_unlocked at h
  cases hu : prepare_provider_update current values (security.encrypt_secret iv) with
  | error message =>
    simp only [hu, Option.some.injEq] at h
    subst h
    exact does_finish _
  | ok updates =>
    simp only [hu] at h
    by_cases hempty : updates = {}
    · rw [if_pos hempty] at h
      cases h
      exact does_finish _
    · rw [if_neg hempty] at h
      cases hrow : w.rows current.id with
      | none =>
        simp only [hrow, Option.some.injEq] at h
        subst h
        exact does_finish _
      | some row =>
        simp only [hrow] at h
        split_ifs at h with hcompany hopen
        · cases h
          exact does_finish _
        · cases h
          exact .overwrites company values current row updates now iv iv' rfl hs hu hrow hopen

theorem write_does {now : Time} {iv iv' : Nat}
    (h : write security w t now iv iv' = some w') :
    Does security w t (.write t now iv iv') w' := by
  unfold write at h
  split at h
  · rename_i company values current hs
    exact write_unlocked_does hs h
  · rename_i call row hs
    split_ifs at h
    split at h
    · cases h
      exact does_finish _
    · rename_i row' hnew
      cases h
      obtain ⟨hid, hkeep⟩ := newVersion_keeps hnew
      apply Does.writes row row' (by rw [hs]; rfl) hid
      intro hstatus
      exact ⟨(hkeep hstatus).1, Or.inl (hkeep hstatus).2⟩
  · rename_i call row outcome hs
    cases h
    apply Does.writes row ((test_updates _ outcome now).apply now row) (by rw [hs]; rfl) rfl
    intro hstatus
    obtain ⟨message, rfl⟩ := test_updates_success hstatus
    refine ⟨?_, Or.inr ⟨call, message, hs⟩⟩
    rw [Updates.apply_toSettings, test_updates_patch, SettingsPatch.apply_empty]
  · cases h

theorem step_does (hkey : ∀ id row, w.rows id = some row → row.id = id)
    (h : step security w a = some w') : Does security w a.session a w' := by
  cases a with
  | begin t call =>
    simp only [step] at h
    split at h
    · cases h
      exact does_put rfl
    · cases h
  | advise t =>
    simp only [step] at h
    split at h
    · rename_i call hs
      split at h
      · split_ifs at h
        cases h
        refine .quiet rfl rfl ?_ (fun _ _ => rfl) (fun _ _ _ hk => hk)
        simp only [Action.session, hs, Session.held]
      · cases h
    · cases h
  | select t id => exact select_does (fun row hrow => hkey id row hrow) h
  | unfound t several =>
    simp only [step] at h
    split at h
    · obtain ⟨m, _, rfl⟩ := Option.map_eq_some_iff.1 h
      exact does_finish _
    · cases h
  | insert t id now iv => exact insert_does h
  | lock t => exact lock_does hkey h
  | probe t relay => exact probe_does h
  | write t now iv iv' => exact write_does h
  | commit t =>
    simp only [step, commit] at h
    split at h
    · rename_i row hs
      cases h
      exact .commits row hs
    · cases h
  | abort t =>
    cases h
    exact does_finish _

theorem Does.other (hd : Does security w t a w') {u : Nat} (hu : u ≠ t) :
    w'.sessions u = w.sessions u := by
  cases hd with
  | quiet hrows htests hself hother => exact hother u hu
  | _ => exact put_other w t _ hu

theorem Does.other_locks (hd : Does security w t a w') {u : Nat} {k : String} (hu : u ≠ t)
    (h : w.locks.holder k = some u) : w'.locks.holder k = some u := by
  cases hd with
  | quiet hrows htests hself hother hlocks => exact hlocks u k hu h
  | locks call row hopen => exact Locks.holder_take_of_open hopen h hu
  | overwrites company values current row updates now iv iv' ha hs hupd hrow hopen =>
    exact Locks.holder_take_of_open hopen h hu
  | probes => exact h
  | writes => exact h
  | commits => exact Locks.holder_release.2 ⟨h, hu⟩

/-! ## The invariant -/

/-- The settings of a row are those of its most recent successful test. -/
def tested (w : World) (row : ProviderRow) : Prop :=
  lastTested w.tests row.id = some row.toSettings

/-- What holds between the rows, the locks and the tests of a run. -/
structure Tested (w : World) : Prop where
  keyed : ∀ id row, w.rows id = some row → row.id = id
  locked : ∀ t row, (w.sessions t).held = some row → w.locks.holder row.id = some t
  /-- A locked row stays as it was read. -/
  current : ∀ t call row, w.sessions t = .holding call row →
    ∀ row', w.rows row.id = some row' → row' = row
  committed : ∀ id row, w.rows id = some row → row.last_test_status = .success → tested w row
  held : ∀ t row, (w.sessions t).held = some row → row.last_test_status = .success → tested w row
  probed : ∀ t call row message, w.sessions t = .probed call row (.ok message) → tested w row

theorem Session.held_holding {session : Session} {call : Call} {row : ProviderRow}
    (h : session = .holding call row) : session.held = some row := by
  rw [h]
  rfl

theorem Session.held_probed {session : Session} {call : Call} {row : ProviderRow}
    {outcome : Except ProbeError String} (h : session = .probed call row outcome) :
    session.held = some row := by
  rw [h]
  rfl

theorem Session.held_written {session : Session} {row : ProviderRow}
    (h : session = .written row) : session.held = some row := by
  rw [h]
  rfl

/-- No two sessions have a lock on one row. -/
theorem Tested.apart (hi : Tested w) {t u : Nat} {row row' : ProviderRow}
    (ht : (w.sessions t).held = some row) (hu : (w.sessions u).held = some row')
    (hne : u ≠ t) : row'.id ≠ row.id := by
  intro hid
  have h1 := hi.locked t row ht
  have h2 := hi.locked u row' hu
  rw [hid, h1] at h2
  exact hne (Option.some.inj h2).symm

/-- An UPDATE of the delivery API whose values are those of the row that it
read, and that comes on a newer version with other values and a successful test. -/
def staleWrite (w : World) : Action → Bool
  | .write t _ _ _ =>
    match w.sessions t with
    | .resolved (.delivery_update _ values) current =>
      !values.connection_changed current.toSettings &&
        (w.rows current.id).any (fun row =>
          decide (row.last_test_status = .success) && values.connection_changed row.toSettings)
    | _ => false
  | _ => false

def freshSnapshot (w : World) (a : Action) : Prop := staleWrite w a = false

instance (w : World) (a : Action) : Decidable (freshSnapshot w a) :=
  inferInstanceAs (Decidable (_ = _))

/-- Any other UPDATE of the delivery API leaves no successful test on new settings. -/
theorem overwrite_keeps {company : String} {values : DeliveryValues} {current row : ProviderRow}
    {updates : Updates} {now : Time} {iv iv' : Nat}
    (hs : w.sessions t = .resolved (.delivery_update company values) current)
    (hu : prepare_provider_update current values (security.encrypt_secret iv) = .ok updates)
    (hrow : w.rows current.id = some row) (hfresh : freshSnapshot w (.write t now iv iv'))
    (hstatus : (updates.apply now row).last_test_status = .success) :
    row.last_test_status = .success ∧ (updates.apply now row).toSettings = row.toSettings := by
  rw [Updates.apply_last_test_status] at hstatus
  obtain ⟨hpatch, ⟨_, hreset, _⟩ | ⟨hsame, hleft, _⟩⟩ := prepare_provider_update_cases hu
  · simp [hreset] at hstatus
  · rw [hleft] at hstatus
    have hrow' : row.last_test_status = .success →
        values.connection_changed row.toSettings = false := by
      simpa [freshSnapshot, staleWrite, hs, hrow, hsame] using hfresh
    refine ⟨hstatus, ?_⟩
    rw [Updates.apply_toSettings, hpatch]
    exact DeliveryValues.patch_of_unchanged _ (hrow' hstatus)

/-- A probe of a locked row leaves the tests of the other rows as they are. -/
theorem lastTested_probe {row : ProviderRow} {outcome : Except ProbeError String}
    {tests : List (String × Settings)}
    (hok : ∀ message, outcome = .ok message → tests = (row.id, row.toSettings) :: w.tests)
    (hfail : ∀ e, outcome = .error e → tests = w.tests) :
    (∀ id, id ≠ row.id → lastTested tests id = lastTested w.tests id) ∧
      (lastTested tests row.id = lastTested w.tests row.id ∨
        lastTested tests row.id = some row.toSettings) := by
  cases outcome with
  | ok message =>
    rw [hok message rfl]
    exact ⟨fun id hid => lastTested_cons_ne _ _ (Ne.symm hid), Or.inr (lastTested_cons_self _ _ _)⟩
  | error e =>
    rw [hfail e rfl]
    exact ⟨fun _ _ => rfl, Or.inl rfl⟩

namespace Tested

section Step

variable (hi : Tested w) (hd : Does security w t a w') (hok : freshSnapshot w a)
include hi hd

theorem keyed_step (id : String) (row : ProviderRow) (h : w'.rows id = some row) :
    row.id = id := by
  cases hd with
  | quiet hrows =>
    rw [hrows] at h
    exact hi.keyed id row h
  | commits own hs =>
    by_cases hid : id = own.id
    · simp only [hid, ↓reduceIte, Option.some.injEq] at h
      rw [← h, hid]
    · simp only [hid, ↓reduceIte] at h
      exact hi.keyed id row h
  | _ => exact hi.keyed id row h

theorem locked_step (u : Nat) (row : ProviderRow) (h : (w'.sessions u).held = some row) :
    w'.locks.holder row.id = some u := by
  by_cases hu : u = t
  · subst hu
    cases hd with
    | quiet hrows htests hself =>
      rw [hself] at h
      cases h
    | locks call own hopen hrow =>
      obtain rfl : own = row := by simpa [World.hold, Session.held] using h
      exact Locks.holder_take_self _ _ _
    | overwrites company values current own updates now iv iv' ha hs hupd hrow hopen =>
      obtain rfl : updates.apply now own = row := by simpa [World.hold, Session.held] using h
      rw [Updates.apply_id, hi.keyed _ _ hrow]
      exact Locks.holder_take_self _ _ _
    | probes call own outcome tests hs =>
      obtain rfl : own = row := by simpa [Session.held] using h
      exact hi.locked u own (Session.held_holding hs)
    | writes own own' hheld hid =>
      obtain rfl : own' = row := by simpa [Session.held] using h
      rw [hid]
      exact hi.locked u own hheld
    | commits own => simp [World.finish, World.put, Session.held] at h
  · rw [hd.other hu] at h
    exact hd.other_locks hu (hi.locked u row h)

/-- A row that the commit of another session changes is not locked here. -/
theorem current_step (u : Nat) (call : Call) (row : ProviderRow)
    (h : w'.sessions u = .holding call row) (row' : ProviderRow)
    (hrow' : w'.rows row.id = some row') : row' = row := by
  by_cases hu : u = t
  · subst hu
    cases hd with
    | quiet hrows htests hself =>
      rw [Session.held_holding h] at hself
      cases hself
    | locks call' own hopen hrow =>
      obtain ⟨rfl, rfl⟩ : call' = call ∧ own = row := by simpa [World.hold] using h
      change w.rows own.id = some row' at hrow'
      rcases hrow with hrow | ⟨hnone, _⟩
      · rw [hrow] at hrow'
        exact (Option.some.inj hrow').symm
      · rw [hnone] at hrow'
        cases hrow'
    | overwrites => simp [World.hold] at h
    | probes => simp at h
    | writes => simp at h
    | commits => simp [World.finish, World.put] at h
  · rw [hd.other hu] at h
    have hkept : w'.rows row.id = w.rows row.id := by
      cases hd with
      | quiet hrows => rw [hrows]
      | commits own hs =>
        have hne := hi.apart (Session.held_written hs) (Session.held_holding h) hu
        simp [hne]
      | _ => rfl
    rw [hkept] at hrow'
    exact hi.current u call row h row' hrow'

/-- The tests of a row that another session has locked do not change. -/
theorem tested_other {u : Nat} {row : ProviderRow} (hu : u ≠ t)
    (h : (w.sessions u).held = some row) (ht : tested w row) : tested w' row := by
  cases hd with
  | quiet hrows htests =>
    unfold tested
    rw [htests]
    exact ht
  | probes call own outcome tests hs htests hfail =>
    have hne := hi.apart (Session.held_holding hs) h hu
    unfold tested
    rw [(lastTested_probe htests hfail).1 row.id hne]
    exact ht
  | _ => exact ht

include hok in
theorem held_step (u : Nat) (row : ProviderRow) (h : (w'.sessions u).held = some row)
    (hstatus : row.last_test_status = .success) : tested w' row := by
  by_cases hu : u = t
  · subst hu
    cases hd with
    | quiet hrows htests hself =>
      rw [hself] at h
      cases h
    | locks call own hopen hrow =>
      obtain rfl : own = row := by simpa [World.hold, Session.held] using h
      rcases hrow with hrow | ⟨_, huntested⟩
      · exact hi.committed own.id own hrow hstatus
      · rw [huntested] at hstatus
        cases hstatus
    | overwrites company values current own updates now iv iv' ha hs hupd hrow hopen =>
      obtain rfl : updates.apply now own = row := by simpa [World.hold, Session.held] using h
      subst ha
      obtain ⟨hown, hsame⟩ := overwrite_keeps hs hupd hrow hok hstatus
      have ht := hi.committed _ own hrow hown
      unfold tested at ht ⊢
      rw [hsame]
      exact ht
    | probes call own outcome tests hs htests hfail =>
      obtain rfl : own = row := by simpa [Session.held] using h
      unfold tested
      rcases (lastTested_probe htests hfail).2 with hsame | hnew
      · rw [hsame]
        exact hi.held u own (Session.held_holding hs) hstatus
      · exact hnew
    | writes own own' hheld hid hkeep =>
      obtain rfl : own' = row := by simpa [Session.held] using h
      obtain ⟨hsame, hbefore⟩ := hkeep hstatus
      have ht : tested w own := by
        rcases hbefore with hbefore | ⟨call, message, hs⟩
        · exact hi.held u own hheld hbefore
        · have hown : (w.sessions u).held = some own := hheld
          exact hi.probed u call own message hs
      unfold tested at ht ⊢
      rw [hid, hsame]
      exact ht
    | commits own => simp [World.finish, World.put, Session.held] at h
  · rw [hd.other hu] at h
    exact hi.tested_other hd hu h (hi.held u row h hstatus)

theorem probed_step (u : Nat) (call : Call) (row : ProviderRow) (message : String)
    (h : w'.sessions u = .probed call row (.ok message)) : tested w' row := by
  by_cases hu : u = t
  · subst hu
    cases hd with
    | quiet hrows htests hself =>
      rw [Session.held_probed h] at hself
      cases hself
    | locks => simp [World.hold] at h
    | overwrites => simp [World.hold] at h
    | probes call' own outcome tests hs htests hfail =>
      obtain ⟨_, rfl, rfl⟩ : call' = call ∧ own = row ∧ outcome = .ok message := by simpa using h
      unfold tested
      rw [htests message rfl]
      exact lastTested_cons_self _ _ _
    | writes => simp at h
    | commits => simp [World.finish, World.put] at h
  · rw [hd.other hu] at h
    exact hi.tested_other hd hu (Session.held_probed h) (hi.probed u call row message h)

theorem committed_step (id : String) (row : ProviderRow) (h : w'.rows id = some row)
    (hstatus : row.last_test_status = .success) : tested w' row := by
  cases hd with
  | quiet hrows htests =>
    rw [hrows] at h
    unfold tested
    rw [htests]
    exact hi.committed id row h hstatus
  | probes call own outcome tests hs htests hfail =>
    change w.rows id = some row at h
    have hid : row.id = id := hi.keyed id row h
    unfold tested
    by_cases hown : row.id = own.id
    · have hsame : row = own := by
        apply hi.current t call own hs
        rw [← hown, hid]
        exact h
      subst hsame
      rcases (lastTested_probe htests hfail).2 with hkept | hnew
      · rw [hkept]
        exact hi.committed id row h hstatus
      · exact hnew
    · rw [(lastTested_probe htests hfail).1 row.id hown]
      exact hi.committed id row h hstatus
  | commits own hs =>
    by_cases hid : id = own.id
    · obtain rfl : own = row := by simpa [hid] using h
      exact hi.held t own (Session.held_written hs) hstatus
    · simp only [hid, ↓reduceIte] at h
      exact hi.committed id row h hstatus
  | _ => exact hi.committed id row h hstatus

include hok in
theorem step : Tested w' where
  keyed := hi.keyed_step hd
  locked := hi.locked_step hd
  current := hi.current_step hd
  committed := hi.committed_step hd
  held := hi.held_step hd hok
  probed := hi.probed_step hd

end Step

end Tested

theorem Tested.start (h : Start w) : Tested w := by
  have hnone : ∀ t, (w.sessions t).held = none := by
    intro t
    obtain ⟨answer, ht⟩ := h.quiet t
    rw [ht]
    rfl
  constructor
  case keyed => exact h.keyed
  case locked =>
    intro t row ht
    rw [hnone t] at ht
    cases ht
  case current =>
    intro t call row ht
    have hheld := Session.held_holding ht
    rw [hnone t] at hheld
    cases hheld
  case committed =>
    intro id row hrow hstatus
    unfold tested
    rw [h.keyed id row hrow]
    exact h.tested id row hrow hstatus
  case held =>
    intro t row ht
    rw [hnone t] at ht
    cases ht
  case probed =>
    intro t call row message ht
    have hheld := Session.held_probed ht
    rw [hnone t] at hheld
    cases hheld

/-! ## The result -/

/-- Each committed row that the worker sends through has the settings that its
most recent successful test was run against. -/
def OnlyTestedConnectionsSend (w : World) : Prop :=
  ∀ id row, w.rows id = some row → row.passesGate →
    lastTested w.tests id = some row.toSettings

theorem only_tested_connections_send (security : Security) {w : World}
    (h : (machine security).Reach freshSnapshot w) : OnlyTestedConnectionsSend w := by
  have hi : Tested w := by
    apply h.invariant
    · intro s hs
      exact Tested.start hs
    · intro s a s' _ hi hok hstep
      exact hi.step (step_does hi.keyed hstep) hok
  intro id row hrow hgate
  have ht := hi.committed id row hrow hgate.2
  unfold tested at ht
  rw [hi.keyed id row hrow] at ht
  exact ht

/-! ### A run with a stale snapshot -/

def testedRow : ProviderRow where
  provider_type := "smtp"
  relay_host := "mail-1.example"
  relay_port := 25
  tls_mode := "none"
  from_address := none
  username := ""
  encrypted_password := ""
  dkim_domain := none
  dkim_selector := none
  encrypted_dkim_private_key := none
  id := "p"
  company_id := "c"
  active := true
  delivery_enabled := false
  last_test_status := .success
  last_test_message := "TCP/EHLO 검증 완료"
  last_connection_at := some 0
  last_connection_error := none
  updated_at := 0

/-- One provider, locked, with a successful test. -/
def quietWorld : World where
  rows := fun id => if id = "p" then some testedRow else none
  locks := .free
  advisory := .free
  sessions := fun _ => .idle none
  tests := [("p", testedRow.toSettings)]

theorem quietWorld_start : Start quietWorld where
  keyed := by
    intro id row h
    simp only [quietWorld] at h
    split_ifs at h with hid
    cases h
    exact hid.symm
  quiet := fun _ => ⟨none, rfl⟩
  tested := by
    intro id row h _
    simp only [quietWorld] at h
    split_ifs at h with hid
    cases h
    rw [hid]
    decide

def plain : Security where
  encrypt_secret := fun _ value => value
  decrypt_secret := some

def goodRelay : Relay := ⟨true, 250, true, 250, true⟩

/-- Session 2 moves the provider to another relay and tests it there. -/
def move : List Action :=
  [.begin 2 (.admin_update "c" "p" { relayHost := some "mail-2.example" }), .select 2 "p",
   .write 2 1 0 0, .commit 2,
   .begin 2 (.admin_test "c" "p"), .select 2 "p", .probe 2 goodRelay, .write 2 2 0 0, .commit 2]

/-- Session 1 opens the delivery, with the settings that the row had. -/
def enable : Action :=
  .begin 1 (.delivery_update "c"
    { relayHost := some "mail-1.example", deliveryEnabled := some true })

/-- It reads the row before session 2 begins. -/
def staleRun : List Action := enable :: .select 1 "p" :: (move ++ [.write 1 3 0 0, .commit 1])

def staleEnd : World := ((machine plain).run quietWorld staleRun).get (by decide)

/-- Session 1 reads the row when session 2 is done, and opens only the delivery. -/
def freshRun : List Action :=
  move ++ [.begin 1 (.delivery_update "c" { deliveryEnabled := some true }),
    .select 1 "p", .write 1 3 0 0, .commit 1]

def freshEnd : World :=
  ((machine plain).runWithin freshSnapshot quietWorld freshRun).get (by decide)

theorem the_moved_provider_sends_when_tested :
    (freshEnd.rows "p").map (·.relay_host) = some "mail-2.example" ∧
      (freshEnd.rows "p").any (fun row => decide row.passesGate) = true ∧
      OnlyTestedConnectionsSend freshEnd :=
  ⟨by decide, by decide, only_tested_connections_send plain
    ((Machine.Reach.start quietWorld_start).runWithin (Option.some_get _).symm)⟩

theorem the_old_relay_sends_untested :
    (machine plain).Reachable staleEnd ∧ ¬ OnlyTestedConnectionsSend staleEnd := by
  constructor
  · exact Machine.reachable_of_run quietWorld_start (Option.some_get _).symm
  · intro h
    have hsome : (staleEnd.rows "p").isSome = true := by decide
    have hgate : ∀ row ∈ staleEnd.rows "p", row.passesGate := by decide
    have hhost : (staleEnd.rows "p").map (·.relay_host) = some "mail-1.example" := by decide
    have hlast : (lastTested staleEnd.tests "p").map (·.relay_host) = some "mail-2.example" := by
      decide
    obtain ⟨row, hrow⟩ := Option.isSome_iff_exists.1 hsome
    rw [h "p" row hrow (hgate row hrow), Option.map_some] at hlast
    rw [hrow, Option.map_some, hlast] at hhost
    revert hhost
    decide

end moaworks.mail_provider_configs
