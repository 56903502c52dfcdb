-- Signature files: how they come and go with the preferences of a user, and
-- how decisions copy them, in transactions that overlap statement by statement.
import MoaWorks.ApprovalOutcomes
import MoaWorks.Lib.SharedLocks

namespace moaworks.approval_signatures

open approvals (Db Document Line Preference Signature)
open approval_delegations (_seoul_today)
open directory_store (AuthUserSummary Directory Error)
open Raise (require bind_ok require_ok found_ok)

/-! ## Calls -/

/-- A call of `update_approval_basic_preferences`. `signature` is what staging
the uploaded file returns. -/
structure Update where
  actor_id : String
  writing_method : String
  attachment_image_display : String
  expected_version : Int
  remove_signature : Bool
  signature : Option Signature
  deriving DecidableEq, Repr

namespace Update

/-- The storage key of the staged file. -/
def staged (call : Update) : Option String := call.signature.bind (·.storage_key)

def refused (call : Update) : Option Error :=
  if call.writing_method ≠ "general" then some (.value_error "지원하지 않는 결재 작성 방식입니다.")
  else if call.attachment_image_display ∉ ["thumbnail", "original", "filename"] then
    some (.value_error "지원하지 않는 첨부 이미지 표시 방식입니다.")
  else if call.expected_version < 0 then some (.value_error "설정 버전이 올바르지 않습니다.")
  else if call.remove_signature ∧ call.signature.isSome then
    some (.value_error "서명 등록과 제거를 동시에 요청할 수 없습니다.")
  else none

end Update

def current_version (current : Option Preference) : Nat := (current.map (·.version)).getD 0

def old_storage_key (current : Option Preference) : Option String :=
  current.bind (·.signature.storage_key)

/-- `signature_values`. -/
def signature_values (call : Update) (current : Option Preference) : Signature :=
  match call.signature with
  | some staged => staged
  | none =>
    if call.remove_signature then .none
    else (current.map (·.signature)).getD .none

/-- The row that the upsert writes. -/
def upserted (actor : AuthUserSummary) (call : Update) (current : Option Preference) : Preference where
  company_id := actor.companyId
  writing_method := call.writing_method
  attachment_image_display := call.attachment_image_display
  signature := signature_values call current
  version := current_version current + 1

/-- A call of one of the decisions. -/
structure Decide where
  actor_id : String
  document_id : String
  reason : String
  accepted : Bool
  forced : Bool
  now : Time
  started : Time
  deriving DecidableEq, Repr

/-- Where a session is: after the statement that the name says. -/
inductive Session
  | idle (answer : Option (Except Error Unit))
  | asked (call : Update)
  | staged (call : Update)
  | known (actor : AuthUserSummary) (call : Update)
  /-- After `SELECT … FOR UPDATE`, which locks the row if there is one. -/
  | locked (actor : AuthUserSummary) (call : Update) (current : Option Preference)
  | upserted (actor : AuthUserSummary) (call : Update) (current : Option Preference)
  /-- The old key, unless a line refers to it or it stays. -/
  | checked (actor : AuthUserSummary) (call : Update) (current : Option Preference)
      (garbage : Option String)
  /-- After the commit, before the deletion of the old file. -/
  | committed (garbage : Option String)
  /-- After the rollback, before the deletion of the staged file. -/
  | failed (call : Update) (error : Error)
  | deciding (call : Decide)
  /-- The document and its lines are locked, and the line is found. -/
  | targeted (actor : AuthUserSummary) (call : Decide) (document : Document) (target : Line)
      (delegation_id : Option String)
  /-- After `SELECT … FOR SHARE` on the preferences of the actor. -/
  | signed (actor : AuthUserSummary) (call : Decide) (document : Document) (target : Line)
      (delegation_id : Option String) (snapshot : Signature)
  | reworking (actor_id document_id : String) (now : Time)
  /-- The document is written, but not committed. -/
  | drawn (document_id : String) (document : Document)

/-- The staged file that the session still has to keep or to delete. -/
def Session.staging : Session → Option String
  | .staged call | .known _ call | .locked _ call _ | .upserted _ call _ | .checked _ call _ _
  | .failed call _ => call.staged
  | _ => none

/-- The committed tables with the files, the storage keys drawn so far, the
locks on documents and preferences, and the sessions. -/
structure World where
  db : Db
  drawn : String → Bool
  documents : Locks String Nat
  preferences : SharedLocks String Nat
  sessions : Nat → Session

namespace World

def put (w : World) (t : Nat) (session : Session) : World :=
  { w with sessions := fun u => if u = t then session else w.sessions u }

/-- The end of a transaction, by its commit or by a rollback. -/
def finish (w : World) (t : Nat) (session : Session) : World :=
  { w.put t session with
    documents := w.documents.release t
    preferences := w.preferences.release t }

/-- A file comes or goes. -/
def file (w : World) (key : Option String) (there : Bool) : World :=
  { w with db := { w.db with
    stored := fun other => if some other = key then there else w.db.stored other } }

end World

/-! ## The statements of an update -/

/-- `ApprovalSignatureStorage.stage` draws a new key and writes the file. -/
def stage (w : World) (t : Nat) : Option World :=
  match w.sessions t with
  | .asked call =>
    match call.staged with
    | none => some (w.put t (.staged call))
    | some key =>
      if w.drawn key then none
      else some { (w.put t (.staged call)).file (some key) true with
        drawn := fun other => decide (other = key) || w.drawn other }
  | _ => none

def know (w : World) (t : Nat) : Option World :=
  match w.sessions t with
  | .staged call =>
    match w.db.directory._fetch_actor_summary call.actor_id with
    | .error error => some (w.finish t (.failed call error))
    | .ok actor => some (w.put t (.known actor call))
  | _ => none

/-- `SELECT … WHERE user_id = … AND company_id = … FOR UPDATE`, and the version. -/
def lock (w : World) (t : Nat) : Option World :=
  match w.sessions t with
  | .known actor call =>
    let conflict := Error.value_error "다른 화면에서 설정이 변경되었습니다."
    match (w.db.preferences.rows actor.userId).filter
        (fun row => decide (row.company_id = actor.companyId)) with
    | none =>
      if (0 : Int) ≠ call.expected_version then some (w.finish t (.failed call conflict))
      else some (w.put t (.locked actor call none))
    | some current =>
      if h : w.preferences.open_to_write t actor.userId = true then
        if (current.version : Int) ≠ call.expected_version then
          some (w.finish t (.failed call conflict))
        else
          some { w.put t (.locked actor call (some current)) with
            preferences := w.preferences.write t actor.userId h }
      else none
  | _ => none

/-- `INSERT … ON CONFLICT (user_id) DO UPDATE`. -/
def upsert (w : World) (t : Nat) : Option World :=
  match w.sessions t with
  | .locked actor call current =>
    if h : w.preferences.open_to_write t actor.userId = true then
      some { w.put t (.upserted actor call current) with
        preferences := w.preferences.write t actor.userId h }
    else none
  | _ => none

/-- `SELECT 1 FROM approval_lines WHERE signature_storage_key = …`. -/
def referenced (db : Db) (key : String) : Bool :=
  decide (db.documents.select (fun _ document =>
    document.lines.any (fun line => decide (line.signature.storage_key = some key)))).Nonempty

/-- The old key that may be deleted after the commit. -/
def garbage (db : Db) (call : Update) (current : Option Preference) : Option String :=
  (old_storage_key current).filter (fun old =>
    decide ((signature_values call current).storage_key ≠ some old) && !referenced db old)

def check (w : World) (t : Nat) : Option World :=
  match w.sessions t with
  | .upserted actor call current =>
    some (w.put t (.checked actor call current (garbage w.db call current)))
  | _ => none

/-- The file is deleted, unless the file system refuses. -/
def collect (w : World) (t : Nat) (deleted : Bool) : Option World :=
  match w.sessions t with
  | .committed garbage =>
    if deleted then some ((w.put t (.idle (some (.ok ())))).file garbage false)
    else some (w.put t (.idle (some (.ok ()))))
  | _ => none

/-- `storage.delete(staged)` of the exception handler. -/
def discard (w : World) (t : Nat) : Option World :=
  match w.sessions t with
  | .failed call error => some ((w.put t (.idle (some (.error error)))).file call.staged false)
  | _ => none

/-! ## The statements of a decision -/

/-- What a decision checks once it has the lock of the document. -/
def opened (db : Db) (call : Decide) : Except Error (AuthUserSummary × Document) := do
  require (Text.strip call.reason ≠ "") (.value_error "사유를 입력해야 합니다.")
  let actor ← db.directory._fetch_actor_summary call.actor_id
  let document ← approvals._fetch_required_approval_document db call.document_id
  approvals._assert_document_status document [.submitted] "결재 처리"
  require (document.lines ≠ []) (.value_error "결재선이 없는 문서입니다.")
  return (actor, document)

/-- The document after a forced decision. -/
def forced_document (call : Decide) (actor : AuthUserSummary) (document : Document) :
    Except Error Document := do
  require (∃ line ∈ document.lines, line.status = .pending)
    (.value_error "직권 처리할 대기 결재선이 없습니다.")
  return if call.accepted
    then approvals.force_approved document (Text.strip call.reason) actor call.now
    else approvals.force_rejected document (Text.strip call.reason) actor call.now

/-- The session goes on with the lock of the document. -/
def hold (w : World) (t : Nat) (document_id : String) (session : Session) : World :=
  { w.put t session with documents := w.documents.take t document_id }

def judge (w : World) (t : Nat) : Option World :=
  match w.sessions t with
  | .deciding call =>
    if w.documents.open_to t call.document_id = false then none
    else match opened w.db call with
      | .error error => some (w.finish t (.idle (some (.error error))))
      | .ok (actor, document) =>
        if call.forced then
          match forced_document call actor document with
          | .error error => some (w.finish t (.idle (some (.error error))))
          | .ok after => some (hold w t call.document_id (.drawn call.document_id after))
        else match approvals.target_line w.db actor document (_seoul_today call.started) with
          | .error error => some (w.finish t (.idle (some (.error error))))
          | .ok (target, delegation_id) =>
            if call.accepted then
              some (hold w t call.document_id (.targeted actor call document target delegation_id))
            else
              some (hold w t call.document_id (.drawn call.document_id
                (approvals.line_rejected document target (Text.strip call.reason) actor call.now
                  delegation_id)))
  | _ => none

/-- `SELECT … WHERE user_id = … AND company_id = … FOR SHARE`. -/
def sign (w : World) (t : Nat) : Option World :=
  match w.sessions t with
  | .targeted actor call document target delegation_id =>
    match (w.db.preferences.rows actor.userId).filter
        (fun row => decide (row.company_id = actor.companyId)) with
    | none => some (w.put t (.signed actor call document target delegation_id .none))
    | some row =>
      if h : w.preferences.open_to_read t actor.userId = true then
        some { w.put t (.signed actor call document target delegation_id row.signature) with
          preferences := w.preferences.read t actor.userId h }
      else none
  | _ => none

def draw (w : World) (t : Nat) : Option World :=
  match w.sessions t with
  | .signed actor call document target delegation_id snapshot =>
    some (w.put t (.drawn call.document_id (approvals.line_approved document target
      (Text.strip call.reason) actor call.now snapshot delegation_id)))
  | _ => none

/-- What a redraft checks once it has the lock of the document. -/
def redraftable (db : Db) (actor_id document_id : String) : Except Error Document := do
  let actor ← db.directory._fetch_actor_summary actor_id
  let document ← approvals._fetch_required_approval_document db document_id
  approvals._assert_creator actor document
  approvals._assert_document_status document [.rejected, .withdrawn] "재기안"
  return document

def redraft (w : World) (t : Nat) : Option World :=
  match w.sessions t with
  | .reworking actor_id document_id now =>
    if w.documents.open_to t document_id = false then none
    else match redraftable w.db actor_id document_id with
      | .error error => some (w.finish t (.idle (some (.error error))))
      | .ok document =>
        some (hold w t document_id (.drawn document_id (approvals.redrafted document now)))
  | _ => none

/-! ## The machine -/

/-- The commit of any of the sessions. -/
def commit (w : World) (t : Nat) : Option World :=
  match w.sessions t with
  | .checked actor call current garbage =>
    some { w.finish t (.committed garbage) with db := { w.db with
      preferences := w.db.preferences.set actor.userId (upserted actor call current) } }
  | .drawn document_id document =>
    some { w.finish t (.idle (some (.ok ()))) with db := { w.db with
      documents := w.db.documents.set document_id document } }
  | _ => none

/-- A rollback, for whatever reason. -/
def abort (w : World) (t : Nat) (error : Error) : Option World :=
  match w.sessions t with
  | .staged call | .known _ call | .locked _ call _ | .upserted _ call _ | .checked _ call _ _ =>
    some (w.finish t (.failed call error))
  | .asked _ | .deciding _ | .targeted _ _ _ _ _ | .signed _ _ _ _ _ _ | .reworking _ _ _
  | .drawn _ _ => some (w.finish t (.idle (some (.error error))))
  | _ => none

/-- The other operations of the approvals, each in one step: neither decisions,
nor redrafts, nor updates of the preferences. -/
def plain : approvals.Action → Bool
  | .decide _ _ _ _ _ _ _ | .rework _ _ _ | .prefer _ _ => false
  | _ => true

/-- The document whose lock an operation takes. -/
def documentOf : approvals.Action → Option String
  | .create _ document_id _ _ _ | .update _ document_id _ _ _ | .submit _ document_id _
  | .withdraw _ document_id _ | .read _ document_id _ _ | .trash _ document_id _ _ => some document_id
  | _ => none

/-- The storage key of a staged attachment. Its folder is not that of the
signatures, so it is no key of theirs. -/
def uploadOf : approvals.Action → Option String
  | .stage _ upload => some upload.storage_key
  | _ => none

inductive Action
  | ask (t : Nat) (call : Update)
  | stage (t : Nat)
  | know (t : Nat)
  | lock (t : Nat)
  | upsert (t : Nat)
  | check (t : Nat)
  | collect (t : Nat) (deleted : Bool)
  | discard (t : Nat)
  | decide (t : Nat) (call : Decide)
  | judge (t : Nat)
  | sign (t : Nat)
  | draw (t : Nat)
  | rework (t : Nat) (actor_id document_id : String) (now : Time)
  | redraft (t : Nat)
  | commit (t : Nat)
  | abort (t : Nat) (error : Error)
  | operate (a : approvals.Action)

/-- A session that is idle begins a call. -/
def start (w : World) (t : Nat) (session : Session) : Option World :=
  match w.sessions t with
  | .idle _ => some (w.put t session)
  | _ => none

def step (w : World) : Action → Option World
  | .ask t call =>
    match call.refused with
    | some error => start w t (.idle (some (.error error)))
    | none => start w t (.asked call)
  | .stage t => stage w t
  | .know t => know w t
  | .lock t => lock w t
  | .upsert t => upsert w t
  | .check t => check w t
  | .collect t deleted => collect w t deleted
  | .discard t => discard w t
  | .decide t call => start w t (.deciding call)
  | .judge t => judge w t
  | .sign t => sign w t
  | .draw t => draw w t
  | .rework t actor_id document_id now => start w t (.reworking actor_id document_id now)
  | .redraft t => redraft w t
  | .commit t => commit w t
  | .abort t error => abort w t error
  | .operate a =>
    if plain a ∧ (documentOf a).all (fun id => decide (w.documents.holder id = none)) ∧
        (uploadOf a).all (fun key => !w.drawn key) then
      (approvals.step ⟨w.db, fun _ => []⟩ a).map (fun w' => { w with db := w'.db })
    else none

/-! ## Evidence -/

/-- The preferences of the user name the key. -/
def Preferred (db : Db) (user_id key : String) : Prop :=
  ∃ row, db.preferences.rows user_id = some row ∧ row.signature.storage_key = some key

/-- A line of the document has the key as its snapshot. -/
def Shows (document : Document) (key : String) : Prop :=
  ∃ line ∈ document.lines, line.signature.storage_key = some key

/-- A line of some document has the key. -/
def Signed (db : Db) (key : String) : Prop :=
  ∃ document_id document, db.documents.rows document_id = some document ∧ Shows document key

/-- The key is recorded, in the preferences of a user or on a line. -/
def Recorded (db : Db) (key : String) : Prop := (∃ user_id, Preferred db user_id key) ∨ Signed db key

/-- Each recorded key names a file that is there. -/
def Kept (db : Db) : Prop := ∀ key, Recorded db key → db.stored key = true

/-- A start: no session runs, each recorded key was drawn and its file is
there, and no two users have one key, as the unique column demands. -/
structure Start (w : World) : Prop where
  kept : Kept w.db
  known : ∀ key, Recorded w.db key → w.drawn key = true
  unique : ∀ user_id other key, Preferred w.db user_id key → Preferred w.db other key →
    user_id = other
  quiet : ∀ t, ∃ answer, w.sessions t = .idle answer

def machine : Machine World Action where
  Start := Start
  step := step

end moaworks.approval_signatures
