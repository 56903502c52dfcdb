-- Break-glass requests: what a custodian signs, how a signature is checked,
-- and how many of them a request needs.
import MoaWorks.Clock
import MoaWorks.Lib.Encoding
import MoaWorks.Lib.Text
import Mathlib.Data.Finset.Card

namespace moaworks.break_glass

open Encoding (Bytes utf8 hex fromhex b64encode b64decode isoformat Free)

/-! ## Requests, approvals and custodians -/

inductive BreakGlassError
  | approval_invalid (message : String)
  | approval_required (message : String)
  | request_unavailable (message : String)
  | value_error (message : String)
  deriving DecidableEq, Repr

/-- The artifact that `request` writes and `sign` reads. -/
structure Request where
  version : String
  requestId : String
  targetUserId : String
  reason : Option String
  reasonDigest : String
  correlationId : String
  expiresAt : String
  nonce : String
  deriving DecidableEq, Repr

/-- The artifact of `sign`. `keyVersion` is `none` where `int` raises. -/
structure Approval where
  version : String
  requestId : String
  approverId : String
  keyVersion : Option Int
  payloadDigest : String
  detachedSignature : String
  deriving DecidableEq, Repr

structure BreakGlassApprover where
  approver_id : String
  key_version : Int
  public_key : Bytes
  active : Bool
  bound_user_id : Option String
  deriving DecidableEq, Repr

/-- The keyring: each custodian stands under his own id. -/
structure Keyring where
  approvers : String → Option BreakGlassApprover
  named : ∀ id approver, approvers id = some approver → approver.approver_id = id

inductive RequestStatus
  | pending
  | consumed
  | cancelled
  | expired
  deriving DecidableEq, Repr

/-- A row of `admin_mfa_break_glass_requests`. -/
structure RequestRow where
  request_id : String
  target_user_id : String
  reason : String
  correlation_id : String
  nonce : Bytes
  status : RequestStatus
  expires_at : Time
  deriving DecidableEq, Repr

/-- A row of `admin_mfa_break_glass_approvals` of one request. -/
structure ApprovalRow where
  approver_id : String
  key_version : Int
  payload_digest : Bytes
  detached_signature : Bytes
  deriving DecidableEq, Repr

/-- SHA-256 and Ed25519. A signature is accepted under the key it belongs to. -/
structure Crypto where
  sha256 : Bytes → Bytes
  public_key_of : Bytes → Bytes
  sign : Bytes → Bytes → Bytes
  verify : Bytes → Bytes → Bytes → Bool
  verify_sign : ∀ private_key payload,
    verify (public_key_of private_key) (sign private_key payload) payload = true

def VERSION : String := "v1"

/-! ## Signing and checking -/

variable (crypto : Crypto)

/-- The values in the order of the payload. -/
def Request.required (request : Request) : List String :=
  [request.version, request.requestId, request.targetUserId, request.reasonDigest,
    request.correlationId, request.expiresAt, request.nonce]

/-- The digests that are compared are hexadecimal texts. -/
def canonical_payload (request : Request) : Except BreakGlassError Bytes :=
  if request.version ≠ VERSION ∨ ¬ ∀ value ∈ request.required, Free '|' value then
    .error (.approval_invalid "복구 요청 payload를 canonicalize할 수 없습니다.")
  else if request.reason.any (fun reason =>
      decide (hex (crypto.sha256 (utf8 reason)) ≠ request.reasonDigest)) then
    .error (.approval_invalid "복구 사유와 reason digest가 일치하지 않습니다.")
  else .ok (utf8 ("|".intercalate request.required))

def sign_request (request : Request) (approver_id : String) (key_version : Int)
    (private_key : Bytes) : Except BreakGlassError Approval := do
  let payload ← canonical_payload crypto request
  pure {
    version := VERSION
    requestId := request.requestId
    approverId := approver_id
    keyVersion := some key_version
    payloadDigest := hex (crypto.sha256 payload)
    detachedSignature := b64encode (crypto.sign private_key payload) }

/-- The custodian is bound to the account that the request is for. -/
def BreakGlassApprover.boundTo (approver : BreakGlassApprover) (user_id : String) : Bool :=
  approver.bound_user_id.any (fun bound => decide (bound ≠ "") && decide (bound = user_id))

def validate_approval (keyring : Keyring) (request : Request) (approval : Approval) :
    Except BreakGlassError BreakGlassApprover :=
  match keyring.approvers approval.approverId with
  | none => .error (.approval_invalid "활성 복구 담당자 서명이 아닙니다.")
  | some approver =>
    if approver.active = false then
      .error (.approval_invalid "활성 복구 담당자 서명이 아닙니다.")
    else if approver.boundTo request.targetUserId then
      .error (.approval_invalid "대상 계정에 귀속된 담당자는 자기승인할 수 없습니다.")
    else if approval.requestId ≠ request.requestId then
      .error (.approval_invalid "승인 request가 일치하지 않습니다.")
    else match approval.keyVersion with
      | none => .error (.approval_invalid "승인 key version 형식이 올바르지 않습니다.")
      | some supplied_key_version =>
        if supplied_key_version ≠ approver.key_version then
          .error (.approval_invalid "승인 key version이 일치하지 않습니다.")
        else match canonical_payload crypto request with
          | .error failure => .error failure
          | .ok payload =>
            match fromhex approval.payloadDigest, b64decode approval.detachedSignature with
            | some supplied_digest, some signature =>
              if crypto.sha256 payload ≠ supplied_digest then
                .error (.approval_invalid "승인 payload digest가 일치하지 않습니다.")
              else if crypto.verify approver.public_key signature payload = false then
                .error (.approval_invalid "승인 서명이 올바르지 않습니다.")
              else .ok approver
            | _, _ => .error (.approval_invalid "승인 서명 encoding이 올바르지 않습니다.")

/-! ## Requests -/

def _request_artifact (request_id target_user_id reason correlation_id : String) (expires_at : Time)
    (nonce : Bytes) : Request where
  version := VERSION
  requestId := request_id
  targetUserId := target_user_id
  reason := some reason
  reasonDigest := hex (crypto.sha256 (utf8 reason))
  correlationId := correlation_id
  expiresAt := isoformat expires_at
  nonce := b64encode nonce

def _artifact_from_row (row : RequestRow) : Request :=
  _request_artifact crypto row.request_id row.target_user_id row.reason row.correlation_id
    row.expires_at row.nonce

/-- `create_request` for an existing account. `uuid` and `nonce` are random,
`now` is the time of the INSERT. -/
def create_request (target_user_id reason correlation_id : String) (expires_in_minutes : Int)
    (uuid nonce : Bytes) (now : Time) : Except BreakGlassError (RequestRow × Request) :=
  let normalized_reason := Text.strip reason
  let normalized_correlation := Text.strip correlation_id
  if normalized_reason = "" ∨ normalized_correlation = "" then
    .error (.value_error "reason과 correlation id는 필수입니다.")
  else if ¬ (1 ≤ expires_in_minutes ∧ expires_in_minutes ≤ 60) then
    .error (.value_error "복구 요청 만료는 1~60분이어야 합니다.")
  else
    let request_id := "bg_" ++ hex uuid
    let expires_at := now + minutes expires_in_minutes.toNat
    let row : RequestRow :=
      { request_id, target_user_id, reason := normalized_reason
        correlation_id := normalized_correlation, nonce, status := .pending, expires_at }
    .ok (row, _request_artifact crypto request_id target_user_id normalized_reason
      normalized_correlation expires_at nonce)

/-! ## The quorum -/

/-- What `execute` rebuilds from a stored approval. -/
def approvalOf (request_id : String) (row : ApprovalRow) : Approval where
  version := VERSION
  requestId := request_id
  approverId := row.approver_id
  keyVersion := some row.key_version
  payloadDigest := hex row.payload_digest
  detachedSignature := b64encode row.detached_signature

/-- The loop of `execute`: the ids of the custodians of all stored approvals. -/
def valid_ids (keyring : Keyring) (request : Request) :
    List ApprovalRow → Finset String → Except BreakGlassError (Finset String)
  | [], ids => .ok ids
  | row :: rest, ids =>
    match validate_approval crypto keyring request (approvalOf request.requestId row) with
    | .error failure => .error failure
    | .ok approver => valid_ids keyring request rest (insert approver.approver_id ids)

/-- `execute` up to its writes: the locked request, and its stored approvals. -/
def approval_check (keyring : Keyring) (row : RequestRow) (approvals : List ApprovalRow)
    (now : Time) : Except BreakGlassError Unit :=
  if row.status ≠ .pending then
    .error (.request_unavailable "대기 중인 복구 요청을 찾을 수 없습니다.")
  else if row.expires_at ≤ now then
    .error (.request_unavailable "복구 요청이 만료되었습니다.")
  else
    match valid_ids crypto keyring (_artifact_from_row crypto row) approvals ∅ with
    | .error failure => .error failure
    | .ok ids =>
      if ids.card < 2 then
        .error (.approval_required "서로 다른 활성 복구 담당자 2명의 승인이 필요합니다.")
      else .ok ()

/-- `approve` on the locked request: the row that it inserts, unless the
custodian approved before. -/
def _approve (keyring : Keyring) (row : RequestRow) (approvals : List ApprovalRow)
    (approval : Approval) (now : Time) : Except BreakGlassError ApprovalRow :=
  if row.status ≠ .pending then
    .error (.request_unavailable "대기 중인 복구 요청을 찾을 수 없습니다.")
  else if row.expires_at ≤ now then
    .error (.request_unavailable "복구 요청이 만료되었습니다.")
  else match validate_approval crypto keyring (_artifact_from_row crypto row) approval with
    | .error failure => .error failure
    | .ok approver =>
      if ∃ stored ∈ approvals, stored.approver_id = approver.approver_id then
        .error (.approval_invalid "같은 복구 담당자의 중복 승인은 허용되지 않습니다.")
      else .ok {
        approver_id := approver.approver_id
        key_version := approver.key_version
        payload_digest := (fromhex approval.payloadDigest).getD []
        detached_signature := (b64decode approval.detachedSignature).getD [] }

end moaworks.break_glass
