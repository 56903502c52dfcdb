-- The rows of `mail_provider_configs` and what the two admin APIs write to
-- them: which columns a request changes, and when it resets the test.
import MoaWorks.Clock
import MoaWorks.Lib.Text
import Mathlib.Tactic.SplitIfs
import Mathlib.Tactic.ByContra

namespace moaworks.mail_provider_configs

/-! ## The row -/

inductive TestStatus
  | untested
  | success
  | failed
  deriving DecidableEq, Repr

/-- The value of the column `last_test_status`. -/
def TestStatus.text : TestStatus → String
  | untested => "untested"
  | success => "success"
  | failed => "failed"

/-- The columns that decide how a connection is made and what is signed. -/
structure Settings where
  provider_type : String
  relay_host : String
  relay_port : Nat
  tls_mode : String
  from_address : Option String
  username : String
  encrypted_password : String
  dkim_domain : Option String
  dkim_selector : Option String
  encrypted_dkim_private_key : Option String
  deriving DecidableEq, Repr

structure ProviderRow extends Settings where
  id : String
  company_id : String
  active : Bool
  delivery_enabled : Bool
  last_test_status : TestStatus
  last_test_message : String
  last_connection_at : Option Time
  last_connection_error : Option String
  updated_at : Time
  deriving DecidableEq, Repr

/-- The check of the delivery worker before it sends through this provider. -/
def ProviderRow.passesGate (row : ProviderRow) : Prop :=
  row.delivery_enabled = true ∧ row.last_test_status = .success

instance (row : ProviderRow) : Decidable row.passesGate := inferInstanceAs (Decidable (_ ∧ _))

/-! ## The SET clause of an UPDATE -/

/-- New values of the connection columns; `none` leaves a column as it is. -/
structure SettingsPatch where
  provider_type : Option String := none
  relay_host : Option String := none
  relay_port : Option Nat := none
  tls_mode : Option String := none
  from_address : Option String := none
  username : Option String := none
  encrypted_password : Option String := none
  dkim_domain : Option String := none
  dkim_selector : Option String := none
  encrypted_dkim_private_key : Option String := none
  deriving DecidableEq, Repr

def SettingsPatch.apply (p : SettingsPatch) (s : Settings) : Settings where
  provider_type := p.provider_type.getD s.provider_type
  relay_host := p.relay_host.getD s.relay_host
  relay_port := p.relay_port.getD s.relay_port
  tls_mode := p.tls_mode.getD s.tls_mode
  from_address := p.from_address <|> s.from_address
  username := p.username.getD s.username
  encrypted_password := p.encrypted_password.getD s.encrypted_password
  dkim_domain := p.dkim_domain <|> s.dkim_domain
  dkim_selector := p.dkim_selector <|> s.dkim_selector
  encrypted_dkim_private_key := p.encrypted_dkim_private_key <|> s.encrypted_dkim_private_key

/-- The `updates` of a request, by column. -/
structure Updates extends SettingsPatch where
  delivery_enabled : Option Bool := none
  last_test_status : Option TestStatus := none
  last_test_message : Option String := none
  last_connection_at : Option (Option Time) := none
  last_connection_error : Option (Option String) := none
  deriving DecidableEq, Repr

/-- `UPDATE mail_provider_configs SET …, updated_at = now`. -/
def Updates.apply (u : Updates) (now : Time) (row : ProviderRow) : ProviderRow where
  toSettings := u.toSettingsPatch.apply row.toSettings
  id := row.id
  company_id := row.company_id
  active := row.active
  delivery_enabled := u.delivery_enabled.getD row.delivery_enabled
  last_test_status := u.last_test_status.getD row.last_test_status
  last_test_message := u.last_test_message.getD row.last_test_message
  last_connection_at := u.last_connection_at.getD row.last_connection_at
  last_connection_error := u.last_connection_error.getD row.last_connection_error
  updated_at := now

section Apply

variable (u : Updates) (now : Time) (row : ProviderRow)

@[simp] theorem Updates.apply_id : (u.apply now row).id = row.id := rfl

@[simp] theorem Updates.apply_toSettings :
    (u.apply now row).toSettings = u.toSettingsPatch.apply row.toSettings := rfl

@[simp] theorem Updates.apply_last_test_status :
    (u.apply now row).last_test_status = u.last_test_status.getD row.last_test_status := rfl

end Apply

@[simp] theorem SettingsPatch.apply_empty (s : Settings) : SettingsPatch.apply {} s = s := by
  simp [SettingsPatch.apply]

/-! ## What counts as a change -/

/-- The request has the value, and it is not the one of the row. -/
def differs {α : Type} [DecidableEq α] (value : Option α) (current : α) : Bool :=
  value.any (fun v => decide (v ≠ current))

/-- A value that Python takes for true: there and not empty. -/
def given (value : Option String) : Option String := value.filter (fun v => decide (v ≠ ""))

theorem getD_of_differs {α : Type} [DecidableEq α] {value : Option α} {current : α}
    (h : differs value current = false) : value.getD current = current := by
  cases value with
  | none => rfl
  | some v => simpa [differs] using h

theorem or_of_differs {value current : Option String}
    (h : differs (value.map some) current = false) : (value <|> current) = current := by
  cases value with
  | none => rfl
  | some v =>
    have hv : some v = current := by simpa [differs] using h
    rw [← hv]
    rfl

/-! ## The delivery API -/

/-- `MailDeliveryProviderUpdateRequest` without the fields that are not set. -/
structure DeliveryValues where
  deliveryEnabled : Option Bool := none
  providerType : Option String := none
  relayHost : Option String := none
  relayPort : Option Nat := none
  tlsMode : Option String := none
  fromAddress : Option String := none
  username : Option String := none
  password : Option String := none
  deriving DecidableEq, Repr

namespace DeliveryValues

/-- The columns of `_CONNECTION_FIELDS` that the request has, and its password. -/
def patch (values : DeliveryValues) (encrypt_secret : String → String) : SettingsPatch where
  provider_type := values.providerType
  relay_host := values.relayHost
  relay_port := values.relayPort
  tls_mode := values.tlsMode
  from_address := values.fromAddress
  username := values.username
  encrypted_password := (given values.password).map encrypt_secret

def connection_changed (values : DeliveryValues) (current : Settings) : Bool :=
  differs values.providerType current.provider_type ||
  differs values.relayHost current.relay_host ||
  differs values.relayPort current.relay_port ||
  differs values.tlsMode current.tls_mode ||
  differs (values.fromAddress.map some) current.from_address ||
  differs values.username current.username ||
  (given values.password).isSome

end DeliveryValues

def prepare_provider_update (current : ProviderRow) (values : DeliveryValues)
    (encrypt_secret : String → String) : Except String Updates :=
  let connection_changed := values.connection_changed current.toSettings
  if connection_changed = true ∧ values.deliveryEnabled = some true then
    .error "연결 설정 변경과 외부 발송 잠금 해제를 같은 요청에서 수행할 수 없습니다."
  else if values.deliveryEnabled = some true ∧ current.last_test_status ≠ .success then
    .error "실제 연결 테스트 성공 후 외부 발송 잠금을 해제할 수 있습니다."
  else if connection_changed then
    .ok { values.patch encrypt_secret with
      delivery_enabled := some false
      last_test_status := some .untested
      last_test_message := some "연결 설정 변경 후 재검증이 필요합니다."
      last_connection_at := some none
      last_connection_error := some none }
  else
    .ok { values.patch encrypt_secret with delivery_enabled := values.deliveryEnabled }

/-! ## The mail admin API -/

/-- The provider types under a provider key. -/
def _PROVIDER_TYPES (provider_key : String) : Option (List String) :=
  if provider_key = "self_hosted" then some ["self_hosted", "self_hosted_smtp", "smtp"]
  else if provider_key = "oci_email_delivery" then some ["oci_email_delivery", "oci_smtp"]
  else none

def _provider_key (provider_type : String) : String :=
  if provider_type = "oci_email_delivery" ∨ provider_type = "oci_smtp" then "oci_email_delivery"
  else "self_hosted"

/-- `MailOperationsProviderUpdateRequest` without the fields that are not set. -/
structure AdminValues where
  relayHost : Option String := none
  relayPort : Option Nat := none
  tlsMode : Option String := none
  senderAddress : Option String := none
  username : Option String := none
  password : Option String := none
  deliveryEnabled : Option Bool := none
  dkimDomain : Option String := none
  dkimSelector : Option String := none
  dkimPrivateKey : Option String := none
  deriving DecidableEq, Repr

/-- `any(x) and not all(x)`. -/
def incomplete (x : List (Option String)) : Bool :=
  x.any (fun v => (given v).isSome) && !x.all (fun v => (given v).isSome)

namespace AdminValues

/-- `set(values) == {"deliveryEnabled"}`: the request only opens or closes the lock. -/
def onlyLock (values : AdminValues) : Bool :=
  values.deliveryEnabled.isSome && decide (values = { deliveryEnabled := values.deliveryEnabled })

/-- The row has an older name of its provider type, and the request gives it the current one. -/
def renames (values : AdminValues) (row : Settings) : Bool :=
  decide (row.provider_type ≠ _provider_key row.provider_type) && !values.onlyLock

def patch (values : AdminValues) (row : Settings)
    (encrypt_secret encrypt_dkim : String → String) : SettingsPatch where
  provider_type := if values.renames row then some (_provider_key row.provider_type) else none
  relay_host := values.relayHost
  relay_port := values.relayPort
  tls_mode := values.tlsMode
  from_address := values.senderAddress
  username := values.username
  dkim_domain := values.dkimDomain
  dkim_selector := values.dkimSelector
  encrypted_password := (given values.password).map encrypt_secret
  encrypted_dkim_private_key := (given values.dkimPrivateKey).map encrypt_dkim

def connection_changed (values : AdminValues) (row : Settings) : Bool :=
  values.renames row ||
  differs values.relayHost row.relay_host ||
  differs values.relayPort row.relay_port ||
  differs values.tlsMode row.tls_mode ||
  differs (values.senderAddress.map some) row.from_address ||
  differs values.username row.username ||
  differs (values.dkimDomain.map some) row.dkim_domain ||
  differs (values.dkimSelector.map some) row.dkim_selector ||
  (given values.password).isSome ||
  (given values.dkimPrivateKey).isSome

end AdminValues

/-- `MailAdminOperations.update_provider` from the locked row to its `updates`. -/
def provider_updates (row : ProviderRow) (values : AdminValues)
    (encrypt_secret encrypt_dkim : String → String) : Except String Updates :=
  let provider_key := _provider_key row.provider_type
  let merged_dkim_identity :=
    [values.dkimDomain <|> row.dkim_domain, values.dkimSelector <|> row.dkim_selector]
  let merged_dkim := merged_dkim_identity ++
    [given values.dkimPrivateKey <|> row.encrypted_dkim_private_key]
  let updates := values.patch row.toSettings encrypt_secret encrypt_dkim
  if incomplete merged_dkim_identity then
    .error "DKIM 도메인과 selector는 함께 설정해야 합니다."
  else if provider_key = "self_hosted" ∧ incomplete merged_dkim = true then
    .error "자체 메일 엔진의 DKIM 도메인, selector, 개인키는 함께 설정해야 합니다."
  else if values.connection_changed row.toSettings then
    if values.deliveryEnabled = some true then
      .error "연결 설정 변경과 발송 활성화는 같은 요청에서 수행할 수 없습니다."
    else
      .ok { updates with
        delivery_enabled := some false
        last_test_status := some .untested
        last_test_message := some "설정 변경 후 재검증이 필요합니다." }
  else if values.deliveryEnabled = some true ∧ row.last_test_status ≠ .success then
    .error "실제 연결 테스트 성공 후 발송을 활성화할 수 있습니다."
  else
    .ok { updates with delivery_enabled := values.deliveryEnabled }

def _create_locked_provider (id company_id provider_key : String) (values : AdminValues)
    (encrypt_secret : String → String) (now : Time) : ProviderRow :=
  let oci := provider_key = "oci_email_delivery"
  { id, company_id
    provider_type := provider_key
    relay_host := values.relayHost.getD (if oci then "" else "localhost")
    relay_port := values.relayPort.getD (if oci then 587 else 25)
    username := values.username.getD ""
    encrypted_password := encrypt_secret (values.password.getD "")
    active := false
    last_test_status := .untested
    last_test_message := "연결 테스트가 필요합니다."
    delivery_enabled := false
    tls_mode := values.tlsMode.getD (if oci then "starttls" else "none")
    from_address := values.senderAddress
    updated_at := now
    dkim_domain := none
    dkim_selector := none
    encrypted_dkim_private_key := none
    last_connection_at := none
    last_connection_error := none }

/-- `re.fullmatch(r"[a-z0-9][a-z0-9-]{0,62}", s)`. -/
def validSelector (s : String) : Bool :=
  let low := fun (c : Char) => ('a' ≤ c && c ≤ 'z') || ('0' ≤ c && c ≤ '9')
  match s.toList with
  | [] => false
  | c :: rest => low c && decide (rest.length ≤ 62) && rest.all (fun c => low c || c == '-')

def normalized_selector (selector : Option String) (month : String) : String :=
  Text.lower (Text.strip ((given selector).getD ("mw" ++ month)))

/-- The UPDATE of `generate_self_hosted_dkim`. -/
def dkim_updates (mail_domain selector encrypted_private_key : String) : Updates where
  dkim_domain := some mail_domain
  dkim_selector := some selector
  encrypted_dkim_private_key := some encrypted_private_key
  delivery_enabled := some false
  last_test_status := some .untested
  last_test_message := some "DKIM 키 생성 후 공인 DNS 등록과 연결 테스트가 필요합니다."

/-! ## The connection test -/

/-- What the relay answers to one probe. -/
structure Relay where
  connects : Bool
  ehlo : Nat
  starttls : Bool
  ehlo_tls : Nat
  login : Bool
  deriving DecidableEq, Repr

/-- Why a probe raises: settings that it refuses, or a relay that does not go along. -/
inductive ProbeError
  | value (message : String)
  | smtp
  deriving DecidableEq, Repr

def isOci (provider : Settings) : Prop :=
  provider.provider_type = "oci_email_delivery" ∨ provider.provider_type = "oci_smtp"

instance (provider : Settings) : Decidable (isOci provider) := inferInstanceAs (Decidable (_ ∨ _))

/-- The part of `probe_smtp_connection` before it connects: the login it will use. -/
def probe_settings (provider : Settings) (decrypt_secret : String → Option String) :
    Except ProbeError (String × String) := do
  let mode := provider.tls_mode
  if mode ∉ ["none", "starttls", "tls"] then throw (.value "지원하지 않는 TLS 설정입니다.")
  if ¬ isOci provider ∧ mode = "tls" then
    throw (.value "자체 SMTP 릴레이는 implicit TLS를 지원하지 않습니다. none 또는 STARTTLS 설정이 필요합니다.")
  if isOci provider ∧ mode = "none" then throw (.value "OCI 연결에는 TLS가 필요합니다.")
  let username := Text.strip provider.username
  let password ←
    if provider.encrypted_password = "" then pure ""
    else match decrypt_secret provider.encrypted_password with
      | some password => pure password
      | none => throw .smtp
  if isOci provider ∧ (username = "" ∨ Text.strip password = "") then
    throw (.value "OCI SMTP 자격증명이 완전하지 않습니다.")
  if ¬ isOci provider ∧ (username = "" ↔ password ≠ "") then
    throw (.value "자체 SMTP 릴레이 자격증명이 완전하지 않습니다.")
  if isOci provider ∧ (provider.relay_port, mode) ∉ [(465, "tls"), (587, "starttls")] then
    throw (.value "OCI SMTP 연결 검증은 465/TLS 또는 587/STARTTLS 설정이 필요합니다.")
  return (username, password)

def probe_smtp_connection (provider : Settings) (decrypt_secret : String → Option String)
    (relay : Relay) : Except ProbeError String := do
  let (username, _) ← probe_settings provider decrypt_secret
  if ¬ relay.connects then throw .smtp
  if relay.ehlo ≠ 250 then throw (.value "SMTP EHLO 검증 실패")
  if provider.tls_mode = "starttls" ∧ ¬ relay.starttls then throw .smtp
  if provider.tls_mode = "starttls" ∧ relay.ehlo_tls ≠ 250 then
    throw (.value "TLS 이후 EHLO 검증 실패")
  if username ≠ "" ∧ ¬ relay.login then throw .smtp
  let tls_result := if provider.tls_mode ≠ "none" then "TLS 검증 완료" else "TLS 미사용"
  let auth_result := if username ≠ "" then "AUTH 검증 완료" else "AUTH 미사용"
  return "TCP/EHLO 검증 완료 · " ++ tls_result ++ " · " ++ auth_result ++
    ". 메일 DATA 및 수신함 도착은 검증하지 않았습니다."

/-- The UPDATE after a probe. The two APIs differ in the text of a failed one. -/
def test_updates (failed_message : String) (outcome : Except ProbeError String) (now : Time) :
    Updates :=
  match outcome with
  | .ok message =>
    { last_test_status := some .success
      last_test_message := some message
      last_connection_at := some (some now)
      last_connection_error := some none }
  | .error _ =>
    { last_test_status := some .failed
      last_test_message := some failed_message
      last_connection_at := some (some now)
      last_connection_error := some (some "SMTP 연결 검증 실패. 관리자 설정을 확인하세요.") }

/-! ## What an update keeps -/

/-- `values` that change nothing in the row write the settings that it has. -/
theorem DeliveryValues.patch_of_unchanged {values : DeliveryValues} {row : Settings}
    (encrypt_secret : String → String) (h : values.connection_changed row = false) :
    (values.patch encrypt_secret).apply row = row := by
  simp only [DeliveryValues.connection_changed, Bool.or_eq_false_iff] at h
  obtain ⟨⟨⟨⟨⟨⟨htype, hhost⟩, hport⟩, htls⟩, hfrom⟩, huser⟩, hpass⟩ := h
  have hp : given values.password = none := by simpa using hpass
  simp [SettingsPatch.apply, DeliveryValues.patch, getD_of_differs htype, getD_of_differs hhost,
    getD_of_differs hport, getD_of_differs htls, or_of_differs hfrom, getD_of_differs huser, hp]

theorem AdminValues.patch_of_unchanged {values : AdminValues} {row : Settings}
    (encrypt_secret encrypt_dkim : String → String) (h : values.connection_changed row = false) :
    (values.patch row encrypt_secret encrypt_dkim).apply row = row := by
  simp only [AdminValues.connection_changed, Bool.or_eq_false_iff] at h
  obtain ⟨⟨⟨⟨⟨⟨⟨⟨⟨hname, hhost⟩, hport⟩, htls⟩, hfrom⟩, huser⟩, hdomain⟩, hselector⟩, hpass⟩,
    hkey⟩ := h
  have hp : given values.password = none := by simpa using hpass
  have hk : given values.dkimPrivateKey = none := by simpa using hkey
  simp [SettingsPatch.apply, AdminValues.patch, hname, getD_of_differs hhost,
    getD_of_differs hport, getD_of_differs htls, or_of_differs hfrom, getD_of_differs huser,
    or_of_differs hdomain, or_of_differs hselector, hp, hk]

/-- The delivery API decides about the row that it read: either it resets
the test, or it saw no change there and leaves the status alone. -/
theorem prepare_provider_update_cases {current : ProviderRow} {values : DeliveryValues}
    {encrypt_secret : String → String} {updates : Updates}
    (h : prepare_provider_update current values encrypt_secret = .ok updates) :
    updates.toSettingsPatch = values.patch encrypt_secret ∧
      ((values.connection_changed current.toSettings = true ∧
          updates.last_test_status = some .untested ∧ updates.delivery_enabled = some false) ∨
        (values.connection_changed current.toSettings = false ∧
          updates.last_test_status = none ∧ updates.delivery_enabled = values.deliveryEnabled ∧
          (values.deliveryEnabled = some true → current.last_test_status = .success))) := by
  simp only [prepare_provider_update] at h
  split_ifs at h with h1 h2 h3
  · cases h
    exact ⟨rfl, Or.inl ⟨h3, rfl, rfl⟩⟩
  · cases h
    refine ⟨rfl, Or.inr ⟨by simpa using h3, rfl, rfl, fun hd => ?_⟩⟩
    by_contra hs
    exact h2 ⟨hd, hs⟩

/-- The mail admin API decides about the row that it locked. -/
theorem provider_updates_cases {row : ProviderRow} {values : AdminValues}
    {encrypt_secret encrypt_dkim : String → String} {updates : Updates}
    (h : provider_updates row values encrypt_secret encrypt_dkim = .ok updates) :
    updates.last_test_status = some .untested ∨
      (updates.last_test_status = none ∧
        updates.toSettingsPatch.apply row.toSettings = row.toSettings) := by
  simp only [provider_updates] at h
  split_ifs at h with h1 h2 h3 h4 h5
  · cases h
    exact Or.inl rfl
  · cases h
    exact Or.inr ⟨rfl, AdminValues.patch_of_unchanged _ _ (by simpa using h3)⟩

theorem test_updates_patch (failed_message : String) (outcome : Except ProbeError String)
    (now : Time) : (test_updates failed_message outcome now).toSettingsPatch = {} := by
  cases outcome <;> rfl

theorem test_updates_success {failed_message : String} {outcome : Except ProbeError String}
    {now : Time} {status : TestStatus}
    (h : (test_updates failed_message outcome now).last_test_status.getD status = .success) :
    ∃ message, outcome = .ok message := by
  cases outcome with
  | ok message => exact ⟨message, rfl⟩
  | error e => simp [test_updates] at h

end moaworks.mail_provider_configs
