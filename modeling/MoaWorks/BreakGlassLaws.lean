-- The laws of break-glass requests: which signatures count, when a request has
-- its two custodians, and which accepted requests can be signed at all.
import MoaWorks.BreakGlass

namespace moaworks.break_glass

open Encoding (Bytes utf8 hex fromhex b64encode b64decode isoformat Free)

variable {crypto : Crypto} {keyring : Keyring} {request : Request}

/-! ## What a signature proves -/

/-- A stored approval that is valid under the current keyring. -/
def Endorses (crypto : Crypto) (keyring : Keyring) (request : Request) (row : ApprovalRow) : Prop :=
  ∃ approver payload, keyring.approvers row.approver_id = some approver ∧ approver.active = true ∧
    approver.boundTo request.targetUserId = false ∧ row.key_version = approver.key_version ∧
    canonical_payload crypto request = .ok payload ∧ row.payload_digest = crypto.sha256 payload ∧
    crypto.verify approver.public_key row.detached_signature payload = true

theorem validate_approval_accepts {approval : Approval} {approver : BreakGlassApprover} :
    validate_approval crypto keyring request approval = .ok approver ↔
      keyring.approvers approval.approverId = some approver ∧ approver.active = true ∧
      approver.boundTo request.targetUserId = false ∧ approval.requestId = request.requestId ∧
      approval.keyVersion = some approver.key_version ∧
      ∃ payload signature, canonical_payload crypto request = .ok payload ∧
        fromhex approval.payloadDigest = some (crypto.sha256 payload) ∧
        b64decode approval.detachedSignature = some signature ∧
        crypto.verify approver.public_key signature payload = true := by
  constructor
  · intro h
    unfold validate_approval at h
    split at h
    · cases h
    · rename_i found hfound
      split_ifs at h with hactive hbound hid
      split at h
      · cases h
      · rename_i version hversion
        split_ifs at h with hsame
        split at h
        · cases h
        · rename_i payload hpayload
          split at h
          · rename_i digest signature hdigest hsignature
            split_ifs at h with heq hverify
            cases h
            rw [not_not] at hid hsame heq
            rw [Bool.not_eq_false] at hactive hverify
            rw [Bool.not_eq_true] at hbound
            exact ⟨hfound, hactive, hbound, hid, by rw [hversion, hsame], payload, signature,
              hpayload, by rw [hdigest, heq], hsignature, hverify⟩
          · cases h
  · rintro ⟨hfound, hactive, hbound, hid, hversion, payload, signature, hpayload, hdigest,
      hsignature, hverify⟩
    simp [validate_approval, hfound, hactive, hbound, hid, hversion, hpayload, hdigest, hsignature,
      hverify]

theorem endorses_iff {row : ApprovalRow} : Endorses crypto keyring request row ↔
    ∃ approver, validate_approval crypto keyring request (approvalOf request.requestId row) =
      .ok approver := by
  unfold Endorses
  constructor
  · rintro ⟨approver, payload, hfound, hactive, hbound, hversion, hpayload, hdigest, hverify⟩
    refine ⟨approver, validate_approval_accepts.2 ⟨hfound, hactive, hbound, rfl, ?_, payload,
      row.detached_signature, hpayload, ?_, Encoding.b64decode_encode _, hverify⟩⟩
    · exact congrArg some hversion
    · rw [← hdigest]
      exact Encoding.fromhex_hex _
  · rintro ⟨approver, h⟩
    obtain ⟨hfound, hactive, hbound, _, hversion, payload, signature, hpayload, hdigest, hsignature,
      hverify⟩ := validate_approval_accepts.1 h
    have hbytes : row.payload_digest = crypto.sha256 payload := by
      have hread := Encoding.fromhex_hex row.payload_digest
      exact Option.some.inj (hread.symm.trans hdigest)
    have hsame : row.detached_signature = signature := by
      have hread := Encoding.b64decode_encode row.detached_signature
      exact Option.some.inj (hread.symm.trans hsignature)
    exact ⟨approver, payload, hfound, hactive, hbound, Option.some.inj hversion, hpayload, hbytes,
      hsame ▸ hverify⟩

/-! ## Keys to run with -/

/-- Signatures that anybody can read. -/
def plainCrypto : Crypto where
  sha256 := fun payload => payload.take 32
  public_key_of := id
  sign := fun private_key payload => private_key ++ payload
  verify := fun public_key signature payload => decide (signature = public_key ++ payload)
  verify_sign := by simp

/-- The custodians `a`, `b` and `c`, of whom `c` may have left. -/
def custodians (c_active : Bool) : Keyring where
  approvers := fun id =>
    if id = "a" then some ⟨"a", 1, [1], true, none⟩
    else if id = "b" then some ⟨"b", 1, [2], true, none⟩
    else if id = "c" then some ⟨"c", 1, [3], c_active, none⟩
    else none
  named := by
    intro id approver h
    split_ifs at h with ha hb hc
    all_goals
      cases h
      symm
      assumption

/-! ## Which requests can be signed -/

theorem canonical_payload_ok {payload : Bytes} :
    canonical_payload crypto request = .ok payload ↔
      request.version = VERSION ∧ (∀ value ∈ request.required, Free '|' value) ∧
      (∀ reason, request.reason = some reason →
        hex (crypto.sha256 (utf8 reason)) = request.reasonDigest) ∧
      payload = utf8 ("|".intercalate request.required) := by
  have hreason : request.reason.any (fun reason =>
      decide (hex (crypto.sha256 (utf8 reason)) ≠ request.reasonDigest)) = true ↔
      ¬ ∀ reason, request.reason = some reason →
        hex (crypto.sha256 (utf8 reason)) = request.reasonDigest := by
    simp [Option.any_eq_true]
  unfold canonical_payload
  by_cases hshape : request.version ≠ VERSION ∨ ¬ ∀ value ∈ request.required, Free '|' value
  · rw [if_pos hshape]
    constructor
    · intro h
      cases h
    · rintro ⟨hversion, hfree, _⟩
      exact absurd hshape (not_or.2 ⟨not_not.2 hversion, not_not.2 hfree⟩)
  · rw [if_neg hshape]
    rw [not_or, not_not, not_not] at hshape
    by_cases hdigest : request.reason.any (fun reason =>
        decide (hex (crypto.sha256 (utf8 reason)) ≠ request.reasonDigest)) = true
    · rw [if_pos hdigest]
      constructor
      · intro h
        cases h
      · rintro ⟨_, _, hall, _⟩
        exact absurd hall (hreason.1 hdigest)
    · rw [if_neg hdigest]
      rw [hreason, not_not] at hdigest
      simp only [Except.ok.injEq, hshape, true_and]
      constructor
      · intro h
        exact ⟨hshape.2, hdigest, h.symm⟩
      · rintro ⟨_, _, h⟩
        exact h.symm

/-- Requests with one payload have the same signed values. -/
theorem canonical_payload_injective {request' : Request} {payload : Bytes}
    (h : canonical_payload crypto request = .ok payload)
    (h' : canonical_payload crypto request' = .ok payload) : request.required = request'.required := by
  obtain ⟨_, hfree, _, hpayload⟩ := canonical_payload_ok.1 h
  obtain ⟨_, hfree', _, hpayload'⟩ := canonical_payload_ok.1 h'
  have htext := Encoding.utf8_injective (hpayload.symm.trans hpayload')
  apply Encoding.join_injective hfree hfree' _ _ htext
  · simp [Request.required]
  · simp [Request.required]

/-- The signed values of an artifact have no separator, but for the two that
come from outside. -/
theorem artifact_free {request_id target_user_id reason correlation_id : String} {uuid nonce : Bytes}
    {expires_at : Time} (hid : request_id = "bg_" ++ hex uuid) :
    (∀ value ∈ (_request_artifact crypto request_id target_user_id reason correlation_id expires_at
        nonce).required, Free '|' value) ↔
      Free '|' correlation_id ∧ Free '|' target_user_id := by
  have hversion : Free '|' VERSION := by decide
  have hrequest : Free '|' request_id := by
    have hhex := Encoding.free_hex uuid
    unfold Free at hhex ⊢
    rw [hid, String.toList_append]
    simp [hhex]
  have hdigest := Encoding.free_hex (crypto.sha256 (utf8 reason))
  have hexpires := Encoding.free_isoformat expires_at
  have hnonce := Encoding.free_b64encode nonce
  simp only [Request.required, _request_artifact, List.forall_mem_cons, hversion, hrequest, hdigest,
    hexpires, hnonce, List.not_mem_nil, false_implies, implies_true, true_and, and_true]
  exact and_comm

theorem create_request_ok {target_user_id reason correlation_id : String} {mins : Int}
    {uuid nonce : Bytes} {now : Time} {row : RequestRow} {request : Request}
    (h : create_request crypto target_user_id reason correlation_id mins uuid nonce now =
      .ok (row, request)) :
    _artifact_from_row crypto row = request ∧
      request = _request_artifact crypto ("bg_" ++ hex uuid) target_user_id (Text.strip reason)
        (Text.strip correlation_id) row.expires_at nonce := by
  simp only [create_request] at h
  split_ifs at h
  cases h
  exact ⟨rfl, rfl⟩

/-- The custodian may sign for the account, and this is his key. -/
structure MaySign (crypto : Crypto) (keyring : Keyring) (target_user_id : String)
    (approver : BreakGlassApprover) (private_key : Bytes) : Prop where
  found : keyring.approvers approver.approver_id = some approver
  active : approver.active = true
  unbound : approver.boundTo target_user_id = false
  key : approver.public_key = crypto.public_key_of private_key

/-- The row that a custodian's approval of a payload leaves. -/
def signedRow (crypto : Crypto) (approver_id : String) (key_version : Int) (private_key : Bytes)
    (payload : Bytes) : ApprovalRow :=
  ⟨approver_id, key_version, crypto.sha256 payload, crypto.sign private_key payload⟩

theorem signed_endorses {private_key payload : Bytes} (approver : BreakGlassApprover)
    (h : MaySign crypto keyring request.targetUserId approver private_key)
    (hpayload : canonical_payload crypto request = .ok payload) :
    Endorses crypto keyring request
      (signedRow crypto approver.approver_id approver.key_version private_key payload) := by
  refine ⟨approver, payload, h.found, h.active, h.unbound, rfl, hpayload, rfl, ?_⟩
  rw [h.key]
  exact crypto.verify_sign private_key payload

/-- Signing works, and the signature is accepted. -/
def Signable (crypto : Crypto) (keyring : Keyring) (request : Request)
    (approver : BreakGlassApprover) (private_key : Bytes) : Prop :=
  ∃ approval, sign_request crypto request approver.approver_id approver.key_version private_key =
      .ok approval ∧ validate_approval crypto keyring request approval = .ok approver

theorem signable_iff {approver : BreakGlassApprover} {private_key : Bytes}
    (h : MaySign crypto keyring request.targetUserId approver private_key) :
    Signable crypto keyring request approver private_key ↔
      ∃ payload, canonical_payload crypto request = .ok payload := by
  constructor
  · rintro ⟨approval, hsign, _⟩
    unfold sign_request at hsign
    cases hpayload : canonical_payload crypto request with
    | error failure =>
      rw [hpayload] at hsign
      cases hsign
    | ok payload => exact ⟨payload, rfl⟩
  · rintro ⟨payload, hpayload⟩
    refine ⟨⟨VERSION, request.requestId, approver.approver_id, some approver.key_version,
      hex (crypto.sha256 payload), b64encode (crypto.sign private_key payload)⟩, ?_, ?_⟩
    · unfold sign_request
      rw [hpayload]
      rfl
    · apply validate_approval_accepts.2
      refine ⟨h.found, h.active, h.unbound, rfl, rfl, payload, crypto.sign private_key payload,
        hpayload, Encoding.fromhex_hex _, Encoding.b64decode_encode _, ?_⟩
      rw [h.key]
      exact crypto.verify_sign private_key payload

theorem created_signable_iff {target_user_id reason correlation_id : String} {mins : Int}
    {uuid nonce : Bytes} {now : Time} {row : RequestRow} {approver : BreakGlassApprover}
    {private_key : Bytes} (h : create_request crypto target_user_id reason correlation_id mins uuid
      nonce now = .ok (row, request))
    (hsign : MaySign crypto keyring target_user_id approver private_key) :
    Signable crypto keyring request approver private_key ↔
      Free '|' (Text.strip correlation_id) ∧ Free '|' target_user_id := by
  obtain ⟨_, hrequest⟩ := create_request_ok h
  have htarget : request.targetUserId = target_user_id := by
    rw [hrequest]
    rfl
  have hfree : (∀ value ∈ request.required, Free '|' value) ↔
      Free '|' (Text.strip correlation_id) ∧ Free '|' target_user_id := by
    rw [hrequest]
    exact artifact_free rfl
  rw [signable_iff (by rw [htarget]; exact hsign), ← hfree]
  constructor
  · rintro ⟨payload, hpayload⟩
    exact (canonical_payload_ok.1 hpayload).2.1
  · intro hvalues
    refine ⟨_, canonical_payload_ok.2 ⟨?_, hvalues, ?_, rfl⟩⟩
    · rw [hrequest]
      rfl
    · intro text htext
      rw [hrequest] at htext ⊢
      cases htext
      rfl

/-- An accepted request is rebuilt from its row as it was returned. The
signatures of its custodians are accepted exactly when neither its correlation
id nor its account has the separator in it. Its payload binds every value. -/
theorem accepted_requests_are_signable_iff {target_user_id reason correlation_id : String}
    {mins : Int} {uuid nonce : Bytes} {now : Time} {row : RequestRow} {request : Request}
    (h : create_request crypto target_user_id reason correlation_id mins uuid nonce now =
      .ok (row, request)) :
    _artifact_from_row crypto row = request ∧
    (∀ (keyring : Keyring) approver private_key,
      MaySign crypto keyring target_user_id approver private_key →
      (Signable crypto keyring request approver private_key ↔
        Free '|' (Text.strip correlation_id) ∧ Free '|' target_user_id)) ∧
    ∀ target_user_id' reason' correlation_id' mins' uuid' nonce' now' row' request' payload,
      create_request crypto target_user_id' reason' correlation_id' mins' uuid' nonce' now' =
        .ok (row', request') →
      canonical_payload crypto request = .ok payload →
      canonical_payload crypto request' = .ok payload →
      request.version = request'.version ∧ request.requestId = request'.requestId ∧
        request.targetUserId = request'.targetUserId ∧
        request.reasonDigest = request'.reasonDigest ∧
        request.correlationId = request'.correlationId ∧
        request.expiresAt = request'.expiresAt ∧ request.nonce = request'.nonce := by
  refine ⟨(create_request_ok h).1, ?_, ?_⟩
  · intro keyring approver private_key hsign
    exact created_signable_iff h hsign
  · intro _ _ _ _ _ _ _ _ request' payload _ hpayload hpayload'
    have hsame := canonical_payload_injective hpayload hpayload'
    simpa [Request.required] using hsame

/-- White space around the correlation id does no harm. -/
theorem a_plain_request_is_signable : ∃ row request,
    create_request plainCrypto "admin" "lost phone" " INC-7 " 15 [1] [7] 0 = .ok (row, request) ∧
      Signable plainCrypto (custodians true) request ⟨"a", 1, [1], true, none⟩ [1] := by
  have h : create_request plainCrypto "admin" "lost phone" " INC-7 " 15 [1] [7] 0 =
      .ok (_, _) := rfl
  have hsignable := (accepted_requests_are_signable_iff h).2.1 (custodians true)
    ⟨"a", 1, [1], true, none⟩ [1] ⟨rfl, rfl, rfl, rfl⟩
  exact ⟨_, _, h, hsignable.2 (by decide)⟩

/-- A request with the separator in its correlation id is accepted and stored,
and nobody can sign it. -/
theorem a_bar_makes_a_request_unsignable : ∃ row request,
    create_request plainCrypto "admin" "lost phone" "INC|7" 15 [1] [7] 0 = .ok (row, request) ∧
      MaySign plainCrypto (custodians true) "admin" ⟨"a", 1, [1], true, none⟩ [1] ∧
      ¬ Signable plainCrypto (custodians true) request ⟨"a", 1, [1], true, none⟩ [1] := by
  have h : create_request plainCrypto "admin" "lost phone" "INC|7" 15 [1] [7] 0 =
      .ok (_, _) := rfl
  have hsign : MaySign plainCrypto (custodians true) "admin" ⟨"a", 1, [1], true, none⟩ [1] :=
    ⟨rfl, rfl, rfl, rfl⟩
  refine ⟨_, _, h, hsign, ?_⟩
  rw [created_signable_iff h hsign]
  decide

/-! ## The quorum -/

/-- Two different custodians endorse the request. -/
def Quorum (crypto : Crypto) (keyring : Keyring) (request : Request) (rows : List ApprovalRow) :
    Prop :=
  ∃ a ∈ rows, ∃ b ∈ rows, a.approver_id ≠ b.approver_id ∧
    Endorses crypto keyring request a ∧ Endorses crypto keyring request b

/-- The loop ends when every stored approval is valid, with the ids of them all. -/
theorem valid_ids_ok {rows : List ApprovalRow} {ids ids' : Finset String} :
    valid_ids crypto keyring request rows ids = .ok ids' ↔
      (∀ row ∈ rows, Endorses crypto keyring request row) ∧
        ids' = ids ∪ (rows.map (·.approver_id)).toFinset := by
  induction rows generalizing ids with
  | nil =>
    simp only [valid_ids, Except.ok.injEq, List.not_mem_nil, false_implies, implies_true, true_and,
      List.map_nil, List.toFinset_nil, Finset.union_empty]
    exact eq_comm
  | cons row rest ih =>
    unfold valid_ids
    split
    · rename_i failure hfailure
      constructor
      · intro h
        cases h
      · rintro ⟨hall, _⟩
        obtain ⟨approver, happrover⟩ := endorses_iff.1 (hall row List.mem_cons_self)
        rw [hfailure] at happrover
        cases happrover
    · rename_i approver happrover
      have hname : approver.approver_id = row.approver_id :=
        keyring.named _ _ (validate_approval_accepts.1 happrover).1
      have hrow : Endorses crypto keyring request row := endorses_iff.2 ⟨approver, happrover⟩
      have hunion : insert row.approver_id ids ∪ (rest.map (·.approver_id)).toFinset =
          ids ∪ ((row :: rest).map (·.approver_id)).toFinset := by
        ext id
        simp only [Finset.mem_union, Finset.mem_insert, List.mem_toFinset, List.map_cons,
          List.mem_cons]
        tauto
      rw [ih, hname, hunion, List.forall_mem_cons]
      simp [hrow]

theorem two_ids_iff {rows : List ApprovalRow} :
    ¬ ((rows.map (·.approver_id)).toFinset).card < 2 ↔
      ∃ a ∈ rows, ∃ b ∈ rows, a.approver_id ≠ b.approver_id := by
  have hcard : ¬ ((rows.map (·.approver_id)).toFinset).card < 2 ↔
      1 < ((rows.map (·.approver_id)).toFinset).card := by omega
  rw [hcard, Finset.one_lt_card]
  simp only [List.mem_toFinset, List.mem_map]
  constructor
  · rintro ⟨_, ⟨a, ha, rfl⟩, _, ⟨b, hb, rfl⟩, hne⟩
    exact ⟨a, ha, b, hb, hne⟩
  · rintro ⟨a, ha, b, hb, hne⟩
    exact ⟨_, ⟨a, ha, rfl⟩, _, ⟨b, hb, rfl⟩, hne⟩

variable {row : RequestRow} {approvals : List ApprovalRow} {now : Time}

/-- What the check of `execute` demands: a quorum, and that no stored approval
is stale. -/
theorem approval_check_passes (hpending : row.status = .pending) (hfresh : now < row.expires_at) :
    approval_check crypto keyring row approvals now = .ok () ↔
      Quorum crypto keyring (_artifact_from_row crypto row) approvals ∧
        ∀ approval ∈ approvals, Endorses crypto keyring (_artifact_from_row crypto row) approval := by
  unfold approval_check
  rw [if_neg (by simp [hpending]), if_neg (Nat.not_le.2 hfresh)]
  split
  · rename_i failure hfailure
    constructor
    · intro h
      cases h
    · rintro ⟨_, hall⟩
      have hok : valid_ids crypto keyring (_artifact_from_row crypto row) approvals ∅ =
          .ok (∅ ∪ (approvals.map (·.approver_id)).toFinset) := valid_ids_ok.2 ⟨hall, rfl⟩
      rw [hfailure] at hok
      cases hok
  · rename_i ids hids
    obtain ⟨hall, rfl⟩ := valid_ids_ok.1 hids
    rw [Finset.empty_union]
    by_cases hcard : ((approvals.map (·.approver_id)).toFinset).card < 2
    · rw [if_pos hcard]
      constructor
      · intro h
        cases h
      · rintro ⟨⟨a, ha, b, hb, hne, _⟩, _⟩
        exact absurd hcard (two_ids_iff.2 ⟨a, ha, b, hb, hne⟩)
    · rw [if_neg hcard]
      obtain ⟨a, ha, b, hb, hne⟩ := two_ids_iff.1 hcard
      simp only [true_iff]
      exact ⟨⟨a, ha, b, hb, hne, hall a ha, hall b hb⟩, hall⟩

/-! ### Three custodians -/

def lostPhone : RequestRow where
  request_id := "bg_01"
  target_user_id := "admin"
  reason := "lost phone"
  correlation_id := "INC-7"
  nonce := [7]
  status := .pending
  expires_at := minutes 15

/-- The payload of that request. -/
def lostPhonePayload : Bytes :=
  utf8 ("|".intercalate (_artifact_from_row plainCrypto lostPhone).required)

theorem lostPhone_payload : canonical_payload plainCrypto (_artifact_from_row plainCrypto lostPhone) =
    .ok lostPhonePayload := by
  refine canonical_payload_ok.2 ⟨rfl, (artifact_free (?_ : "bg_01" = "bg_" ++ hex [1])).2 ?_, ?_, rfl⟩
  · decide
  · decide
  · intro reason hreason
    cases hreason
    rfl

/-- The stored row of a custodian's approval. -/
def approvedBy (id : String) (private_key : Bytes) : ApprovalRow :=
  signedRow plainCrypto id 1 private_key lostPhonePayload

theorem a_endorses (c_active : Bool) : Endorses plainCrypto (custodians c_active)
    (_artifact_from_row plainCrypto lostPhone) (approvedBy "a" [1]) :=
  signed_endorses ⟨"a", 1, [1], true, none⟩ ⟨rfl, rfl, rfl, rfl⟩ lostPhone_payload

theorem b_endorses (c_active : Bool) : Endorses plainCrypto (custodians c_active)
    (_artifact_from_row plainCrypto lostPhone) (approvedBy "b" [2]) :=
  signed_endorses ⟨"b", 1, [2], true, none⟩ ⟨rfl, rfl, rfl, rfl⟩ lostPhone_payload

theorem c_endorses_iff {c_active : Bool} : Endorses plainCrypto (custodians c_active)
    (_artifact_from_row plainCrypto lostPhone) (approvedBy "c" [3]) ↔ c_active = true := by
  constructor
  · rintro ⟨approver, _, hfound, hactive, _⟩
    cases hfound
    exact hactive
  · rintro rfl
    exact signed_endorses ⟨"c", 1, [3], true, none⟩ ⟨rfl, rfl, rfl, rfl⟩ lostPhone_payload

/-- Two valid approvals of different custodians are enough exactly when no
other stored approval has become invalid. -/
theorem two_custodians_suffice_iff (hpending : row.status = .pending)
    (hfresh : now < row.expires_at) :
    (approval_check crypto keyring row approvals now = .ok () ↔
      Quorum crypto keyring (_artifact_from_row crypto row) approvals) ↔
    ((∀ approval ∈ approvals, Endorses crypto keyring (_artifact_from_row crypto row) approval) ∨
      ¬ Quorum crypto keyring (_artifact_from_row crypto row) approvals) := by
  rw [approval_check_passes hpending hfresh]
  constructor
  · intro h
    by_cases hquorum : Quorum crypto keyring (_artifact_from_row crypto row) approvals
    · exact Or.inl (h.2 hquorum).2
    · exact Or.inr hquorum
  · rintro (hall | hnone)
    · exact ⟨fun h => h.1, fun h => ⟨h, hall⟩⟩
    · exact ⟨fun h => h.1, fun h => absurd h hnone⟩

theorem two_valid_approvals_suffice :
    approval_check plainCrypto (custodians false) lostPhone [approvedBy "a" [1], approvedBy "b" [2]]
        (minutes 1) = .ok () ↔
      Quorum plainCrypto (custodians false) (_artifact_from_row plainCrypto lostPhone)
        [approvedBy "a" [1], approvedBy "b" [2]] :=
  (two_custodians_suffice_iff rfl (by decide)).2 (Or.inl (by
    intro approval h
    simp only [List.mem_cons, List.not_mem_nil, or_false] at h
    rcases h with rfl | rfl
    · exact a_endorses false
    · exact b_endorses false))

/-- All three approved while they were active. Then `c` left: `a` and `b` still
endorse the request, but `execute` refuses it, and `c`'s row cannot be replaced. -/
theorem one_stale_approval_blocks_execute :
    (∀ approval ∈ [approvedBy "a" [1], approvedBy "b" [2], approvedBy "c" [3]],
      Endorses plainCrypto (custodians true) (_artifact_from_row plainCrypto lostPhone) approval) ∧
    Quorum plainCrypto (custodians false) (_artifact_from_row plainCrypto lostPhone)
      [approvedBy "a" [1], approvedBy "b" [2], approvedBy "c" [3]] ∧
    approval_check plainCrypto (custodians false) lostPhone
      [approvedBy "a" [1], approvedBy "b" [2], approvedBy "c" [3]] (minutes 1) ≠ .ok () := by
  refine ⟨?_, ?_, ?_⟩
  · intro approval h
    simp only [List.mem_cons, List.not_mem_nil, or_false] at h
    rcases h with rfl | rfl | rfl
    · exact a_endorses true
    · exact b_endorses true
    · exact c_endorses_iff.2 rfl
  · exact ⟨approvedBy "a" [1], by simp, approvedBy "b" [2], by simp, by simp [approvedBy, signedRow],
      a_endorses false, b_endorses false⟩
  · intro h
    have hall := ((approval_check_passes rfl (by decide)).1 h).2
    have hc := c_endorses_iff.1 (hall (approvedBy "c" [3]) (by simp))
    cases hc

end moaworks.break_glass
