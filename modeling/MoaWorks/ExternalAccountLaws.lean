-- What the requests for the external accounts write: which rows, and with which connection.
import MoaWorks.ExternalRuns

namespace moaworks.mail_external

/-! ## Endpoints -/

variable {is_ip : String → Bool}

theorem validate_syntax_ok {host value : String} {port : Nat} {tls_mode : TlsMode}
    (h : validate_syntax is_ip host port tls_mode = .ok value) :
    value = Text.rstrip '.' (Text.lower (Text.strip host)) ∧ isDomainName value = true := by
  unfold validate_syntax at h
  obtain ⟨_, _, h⟩ := Raise.bind_ok.1 h
  obtain ⟨_, _, h⟩ := Raise.bind_ok.1 h
  obtain ⟨_, _, h⟩ := Raise.bind_ok.1 h
  obtain ⟨_, hname, h⟩ := Raise.bind_ok.1 h
  obtain ⟨_, _, h⟩ := Raise.bind_ok.1 h
  have hvalue := Except.ok.inj h
  subst hvalue
  exact ⟨rfl, Raise.require_ok.1 hname⟩

/-- The characters of a domain name. -/
theorem domainName_chars {value : String} (h : isDomainName value = true) {c : Char}
    (hc : c ∈ value.toList) : c = '.' ∨ isLabelChar c = true := by
  unfold isDomainName at h
  obtain ⟨_, hlabels⟩ := Bool.and_eq_true_iff.1 h
  have hjoin : ['.'].intercalate (value.toList.splitOn '.') = value.toList :=
    List.intercalate_splitOn '.'
  rw [← hjoin] at hc
  rcases Text.mem_intercalate hc with heq | ⟨label, hlabel, hc⟩
  · exact .inl heq
  · have hall := List.all_eq_true.1 hlabels label hlabel
    unfold isLabel at hall
    simp only [Bool.and_eq_true, List.all_eq_true] at hall
    exact .inr (hall.1.1.2 c hc)

/-- The characters of a domain name are no capitals and no white space. -/
theorem domainName_char {c : Char} (h : c = '.' ∨ isLabelChar c = true) :
    c.toLower = c ∧ Text.isSpace c = false := by
  have hnat : c.toNat = 46 ∨ c.toNat = 45 ∨ 48 ≤ c.toNat ∧ c.toNat ≤ 57 ∨
      97 ≤ c.toNat ∧ c.toNat ≤ 122 := by
    rcases h with rfl | h
    · exact .inl rfl
    · unfold isLabelChar at h
      simp only [Bool.or_eq_true, Bool.and_eq_true, decide_eq_true_eq] at h
      rcases h with (⟨hlow, hhigh⟩ | ⟨hlow, hhigh⟩) | rfl
      · exact .inr (.inr (.inr ⟨hlow, hhigh⟩))
      · exact .inr (.inr (.inl ⟨hlow, hhigh⟩))
      · exact .inr (.inl rfl)
  constructor
  · rcases Text.toLower_cases c with hsame | ⟨hlow, hhigh, _⟩
    · exact hsame
    · omega
  · unfold Text.isSpace
    simp only [Bool.or_eq_false_iff, Bool.and_eq_false_iff, decide_eq_false_iff_not,
      beq_eq_false_iff_ne]
    omega

/-- A stored host is the one that a test of it reaches. -/
theorem validate_syntax_again {host value value' : String} {port port' : Nat}
    {tls_mode tls_mode' : TlsMode} (h : validate_syntax is_ip host port tls_mode = .ok value)
    (h' : validate_syntax is_ip value port' tls_mode' = .ok value') : value' = value := by
  obtain ⟨hvalue, hname⟩ := validate_syntax_ok h
  obtain ⟨hvalue', _⟩ := validate_syntax_ok h'
  have hchar := fun c (hc : c ∈ value.toList) => domainName_char (domainName_chars hname hc)
  rw [Text.strip_of_no_space (fun c hc => (hchar c hc).2),
    Text.lower_of_all (fun c hc => (hchar c hc).1)] at hvalue'
  rw [hvalue', hvalue, Text.rstrip_rstrip]

/-! ## Requests -/

variable {account_id : String} {actor : AuthUserSummary} {db db' : Db}

theorem ownAccount_eq_some {a : Account} (h : ownAccount db actor account_id = some a) :
    db.accounts.rows account_id = some a ∧ a.deleted_at = none := by
  unfold ownAccount at h
  obtain ⟨hrow, howned⟩ := Option.filter_eq_some_iff.1 h
  simp only [Bool.and_eq_true, decide_eq_true_eq, Option.isNone_iff_eq_none] at howned
  exact ⟨hrow, howned.2⟩

/-- The host of the account came out of `validate_syntax`. -/
def Validated (is_ip : String → Bool) (a : Account) : Prop :=
  ∃ host port tls_mode, validate_syntax is_ip host port tls_mode = .ok a.connection.host

theorem create_account_ok {payload : AccountPayload}
    (h : create_account is_ip account_id actor payload db = .ok db') :
    ∃ a, db' = db.setAccount account_id a ∧ a.connection_status = .untested ∧
      Validated is_ip a := by
  unfold create_account at h
  obtain ⟨host, hhost, h⟩ := Raise.bind_ok.1 h
  obtain ⟨_, _, h⟩ := Raise.bind_ok.1 h
  obtain ⟨_, _, h⟩ := Raise.bind_ok.1 h
  obtain ⟨_, _, h⟩ := Raise.bind_ok.1 h
  obtain ⟨_, _, h⟩ := Raise.bind_ok.1 h
  obtain ⟨_, _, h⟩ := Raise.bind_ok.1 h
  obtain ⟨_, _, h⟩ := Raise.bind_ok.1 h
  exact ⟨_, (Except.ok.inj h).symm, rfl, _, _, _, hhost⟩

theorem prepare_secret_untyped {password : Option String} {existing value : String}
    (h : prepare_secret password (some existing) = .ok value) (hp : typed password = false) :
    value = existing := by
  unfold prepare_secret at h
  cases password with
  | none => exact (Except.ok.inj h).symm
  | some p =>
    unfold typed at hp
    simp only [Option.any_some, decide_eq_false_iff_not, not_not] at hp
    subst hp
    exact (Except.ok.inj h).symm

/-- A change of settings that keeps the status of the connection keeps the connection. -/
theorem update_account_ok {payload : AccountPayload} {expectedVersion : Nat}
    (h : update_account is_ip account_id actor payload expectedVersion db = .ok db') :
    ∃ old new, db.accounts.rows account_id = some old ∧ db' = db.setAccount account_id new ∧
      Validated is_ip new ∧
      (new.connection_status = .untested ∨
        new.connection_status = old.connection_status ∧ new.connection = old.connection) := by
  unfold update_account at h
  obtain ⟨old, hold, h⟩ := Raise.bind_ok.1 h
  obtain ⟨_, _, h⟩ := Raise.bind_ok.1 h
  obtain ⟨host, hhost, h⟩ := Raise.bind_ok.1 h
  obtain ⟨password, hpassword, h⟩ := Raise.bind_ok.1 h
  obtain ⟨_, _, h⟩ := Raise.bind_ok.1 h
  obtain ⟨_, _, h⟩ := Raise.bind_ok.1 h
  obtain ⟨_, _, h⟩ := Raise.bind_ok.1 h
  refine ⟨old, _, (ownAccount_eq_some (Raise.found_ok.1 hold)).1, (Except.ok.inj h).symm,
    ⟨_, _, _, hhost⟩, ?_⟩
  unfold updatedAccount
  dsimp only
  split_ifs with hreset
  · exact .inl rfl
  · refine .inr ⟨rfl, ?_⟩
    unfold resets at hreset
    simp only [Bool.or_eq_true, decide_eq_true_eq, not_or, not_not] at hreset
    obtain ⟨⟨⟨⟨htyped, hhost'⟩, hport⟩, htls⟩, husername⟩ := hreset
    rw [Bool.not_eq_true] at htyped
    rw [prepare_secret_untyped hpassword htyped, ← hhost', ← hport, ← htls, ← husername]

theorem reserve_test_attempt_ok {now : Time}
    (h : reserve_test_attempt account_id actor now db = .ok db') :
    ∃ a, db.accounts.rows account_id = some a ∧
      db' = db.setAccount account_id { a with last_test_at := some now } := by
  unfold reserve_test_attempt at h
  obtain ⟨a, ha, h⟩ := Raise.bind_ok.1 h
  obtain ⟨_, _, h⟩ := Raise.bind_ok.1 h
  exact ⟨a, (ownAccount_eq_some (Raise.found_ok.1 ha)).1, (Except.ok.inj h).symm⟩

theorem mark_deleted_ok {now : Time} (h : mark_deleted account_id actor now db = .ok db') :
    ∃ a, db.accounts.rows account_id = some a ∧ db' = db.setAccount account_id { a with
      enabled := false, deleted_at := some now, version := a.version + 1 } := by
  unfold mark_deleted at h
  obtain ⟨a, ha, h⟩ := Raise.bind_ok.1 h
  exact ⟨a, (ownAccount_eq_some (Raise.found_ok.1 ha)).1, (Except.ok.inj h).symm⟩

theorem insert_job_eq_some {job_id : String} {job : CollectionJob}
    (h : insert_job job_id job db = some db') : db' = db.setJob job_id job := by
  unfold insert_job at h
  split_ifs at h with hfree
  exact (Option.some.inj h).symm

end moaworks.mail_external
