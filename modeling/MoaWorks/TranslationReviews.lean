-- The review of translations: the items with their history, what a reviewer does to one, and the
-- retranslation, which asks the provider between two transactions.
import MoaWorks.Clock
import MoaWorks.Lib.Machine
import MoaWorks.Lib.Raise
import MoaWorks.Lib.Table
import MoaWorks.Lib.Text

namespace moaworks.translation_operations

/-! ## Rows -/

structure AuthUserSummary where
  userId : String
  companyId : String
  deriving DecidableEq, Repr

inductive Status
  | pending | edited | approved | failed
  deriving DecidableEq, Repr

/-- A row of `translation_review_items`; the cost counts the last of its eight decimals. -/
structure ReviewItem where
  company_id : String
  created_by_user_id : String
  source_hash : String
  source_locale : String
  target_locale : String
  source_text : String
  translated_text : String
  provider_type : String
  model : String
  status : Status
  estimated_cost : Option Nat
  approved_by_user_id : Option String
  approved_at : Option Time
  deriving DecidableEq, Repr

inductive Action
  | edit | approve | retranslate
  deriving DecidableEq, Repr

inductive EventAction
  | created | edit | approve | retranslate
  deriving DecidableEq, Repr

/-- A row of `translation_review_events`, with the provider and the model that its metadata holds. -/
structure ReviewEvent where
  company_id : String
  review_id : String
  actor_user_id : String
  action : EventAction
  before_text : Option String
  after_text : Option String
  metadata : Option (String × String)
  deriving DecidableEq, Repr

/-- The two tables; the events stand in the order in which they were inserted. -/
structure Database where
  translation_review_items : Table String ReviewItem
  translation_review_events : List ReviewEvent

structure HTTPException where
  status_code : Nat
  code : String
  userMessage : String
  adminMessage : String
  deriving DecidableEq, Repr

def notFound : HTTPException :=
  ⟨404, "TRANSLATION_REVIEW_NOT_FOUND", "번역 검수 항목을 찾을 수 없습니다.",
    "tenant-scoped review not found"⟩

def retranslateRequired : HTTPException :=
  ⟨409, "TRANSLATION_RETRANSLATE_REQUIRED", "재번역은 번역 서비스를 통해 실행해야 합니다.",
    "service retranslation required"⟩

def retranslateFailed (adminMessage : String) : HTTPException :=
  ⟨502, "TRANSLATION_RETRANSLATE_FAILED", "재번역에 실패해 기존 번역을 유지했습니다.", adminMessage⟩

/-! ## The store -/

structure TranslationReviewActionRequest where
  action : Action
  translatedText : Option String
  deriving DecidableEq, Repr

/-- The checks of the schema: `min_length=1` and `require_text_for_edit`. -/
def TranslationReviewActionRequest.valid (payload : TranslationReviewActionRequest) : Bool :=
  decide (payload.translatedText ≠ some "") &&
    (decide (payload.action ≠ .edit) || payload.translatedText.isSome)

/-- `SELECT * FROM translation_review_items WHERE id=%s AND company_id=%s`. -/
def get_review (db : Database) (actor : AuthUserSummary) (review_id : String) :
    Except HTTPException ReviewItem :=
  Raise.found ((db.translation_review_items.rows review_id).filter
    (fun row => decide (row.company_id = actor.companyId))) notFound

def _review_event (db : Database) (actor : AuthUserSummary) (review_id : String)
    (action : EventAction) (before after : Option String)
    (metadata : Option (String × String)) : Database :=
  { db with translation_review_events := db.translation_review_events ++
      [⟨actor.companyId, review_id, actor.userId, action, before, after, metadata⟩] }

def setItem (db : Database) (review_id : String) (row : ReviewItem) : Database :=
  { db with translation_review_items := db.translation_review_items.set review_id row }

/-- What `translate` hands to `create_review`. -/
structure NewReview where
  source_hash : String
  source_locale : String
  target_locale : String
  source_text : String
  translated_text : String
  provider : String
  model : String
  estimated_cost : Option Nat
  deriving DecidableEq, Repr

/-- `create_review`, with the id that is drawn. -/
def create_review (db : Database) (actor : AuthUserSummary) (review_id : String) (r : NewReview) :
    Database :=
  _review_event (setItem db review_id
    ⟨actor.companyId, actor.userId, r.source_hash, r.source_locale, r.target_locale, r.source_text,
      r.translated_text, r.provider, r.model, .pending, r.estimated_cost, none, none⟩)
    actor review_id .created none (some r.translated_text) none

/-- The columns that an edit and an approval update. -/
def edited (text : String) (row : ReviewItem) : ReviewItem :=
  { row with translated_text := text, status := .edited }

def approved (actor : AuthUserSummary) (now : Time) (row : ReviewItem) : ReviewItem :=
  { row with
    status := .approved
    approved_by_user_id := some actor.userId
    approved_at := some now }

def apply_review_action (db : Database) (actor : AuthUserSummary) (review_id : String)
    (payload : TranslationReviewActionRequest) (now : Time) : Except HTTPException Database := do
  let row ← get_review db actor review_id
  match payload.action, payload.translatedText with
  | .edit, some text =>
    pure (_review_event (setItem db review_id (edited text row)) actor review_id .edit
      (some row.translated_text) (some text) none)
  | .approve, _ =>
    pure (_review_event (setItem db review_id (approved actor now row)) actor review_id .approve
      (some row.translated_text) (some row.translated_text) none)
  | _, _ => .error retranslateRequired

/-- An item of the response of `translate`. -/
structure TranslationItem where
  translatedText : String
  provider : String
  translated : Bool
  statusMessage : Option String
  model : String
  estimatedCost : Option Nat
  deriving DecidableEq, Repr

def retranslated (item : TranslationItem) (row : ReviewItem) : ReviewItem :=
  { row with
    translated_text := item.translatedText
    provider_type := item.provider
    model := item.model
    estimated_cost := item.estimatedCost
    status := .pending
    approved_by_user_id := none
    approved_at := none }

def apply_retranslation (db : Database) (actor : AuthUserSummary) (review_id : String)
    (item : TranslationItem) : Except HTTPException Database := do
  let row ← get_review db actor review_id
  pure (_review_event (setItem db review_id (retranslated item row)) actor review_id .retranslate
    (some row.translated_text) (some item.translatedText) (some (item.provider, item.model)))

/-! ## The service -/

def _SUPPORTED_LOCALES : List String := ["en", "ko", "ja", "zh-cn", "es", "fr", "de"]

def _SUPPORTED_SOURCE_LOCALES : List String := _SUPPORTED_LOCALES ++ ["auto"]

def _SUPPORTED_TARGET_LOCALES : List String := _SUPPORTED_LOCALES

def _normalize_locale (value : String) : String :=
  Text.lower (String.ofList ((Text.strip value).toList.map (fun c => if c = '_' then '-' else c)))

/-- What the company's policy, and the provider that it resolves to, say to `translate`. -/
structure Policy where
  enabled : Bool
  available : Bool
  provider : String
  deriving DecidableEq, Repr

structure ProviderResult where
  translated_text : String
  model : String
  estimated_cost : Option Nat
  deriving DecidableEq, Repr

/-- What `_invoke_with_resilience` ends with: a result, or an exception with its safe code. -/
abbrev Outcome := Except String ProviderResult

def _disabled_item (text status_message provider : String) : TranslationItem :=
  ⟨text, provider, false, some status_message, "", none⟩

/-- The item for a text that `translate` does not send to the provider. -/
def unsent (policy : Policy) (row : ReviewItem) : Option TranslationItem :=
  if _normalize_locale row.source_locale ∉ _SUPPORTED_SOURCE_LOCALES then
    some (_disabled_item row.source_text "지원하지 않는 sourceLocale입니다." "disabled")
  else if _normalize_locale row.target_locale ∉ _SUPPORTED_TARGET_LOCALES then
    some (_disabled_item row.source_text "지원하지 않는 targetLocale입니다." "disabled")
  else if !policy.enabled || !policy.available then
    some (_disabled_item row.source_text "번역 비활성 상태" "disabled")
  else none

/-- `fallbackUsed` and the item for the answer of the provider. -/
def answered (provider source_text : String) : Outcome → Bool × TranslationItem
  | .error code => (true, _disabled_item source_text code provider)
  | .ok result => (false, ⟨result.translated_text, provider,
      decide (result.translated_text ≠ source_text), none, result.model, result.estimated_cost⟩)

/-- `retranslate_review` takes the response only when it is a translation. -/
def retranslation (fallbackUsed : Bool) (item : TranslationItem) :
    Except HTTPException TranslationItem :=
  if fallbackUsed || !item.translated then
    .error (retranslateFailed (item.statusMessage.getD "provider fallback"))
  else .ok item

/-! ## Reviewers at work -/

/-- Where a call of `retranslate_review` stands: it has read the item, it waits for the provider, or
it is to write the new text. -/
inductive Phase
  | translating (actor : AuthUserSummary) (review_id : String) (review : ReviewItem)
  | calling (actor : AuthUserSummary) (review_id : String) (review : ReviewItem) (provider : String)
  | applying (actor : AuthUserSummary) (review_id : String) (item : TranslationItem)
  | done (reply : Option HTTPException)
  deriving DecidableEq, Repr

/-- The item that a call will write, when it has not ended. -/
def Phase.review_id : Phase → Option String
  | .translating _ review_id _ | .calling _ review_id _ _ | .applying _ review_id _ => some review_id
  | .done _ => none

inductive Entry
  | started (call : Nat) (review_id : String)
  | reviewed (review_id : String) (action : Action)
  | overwritten (call : Nat) (review_id : String)
  deriving DecidableEq, Repr

/-- `log` holds what has happened to the items, the oldest entry first. -/
structure World where
  db : Database
  calls : Nat → Option Phase
  log : List Entry

inductive Event
  | create_review (actor : AuthUserSummary) (review_id : String) (review : NewReview)
  | apply_review_action (actor : AuthUserSummary) (review_id : String)
      (payload : TranslationReviewActionRequest) (now : Time)
  | retranslate_review (call : Nat) (actor : AuthUserSummary) (review_id : String)
  | policy (call : Nat) (policy : Policy)
  | provider (call : Nat) (outcome : Outcome)
  | apply_retranslation (call : Nat)
  /-- Any other exception, or the end of the process. -/
  | abort (call : Nat)

def World.advance (w : World) (call : Nat) (phase : Phase) : World :=
  { w with calls := fun c => if c = call then some phase else w.calls c }

def World.record (w : World) (db : Database) (entry : Entry) : World :=
  { w with db := db, log := w.log ++ [entry] }

/-- `retranslate_review` begins with its first transaction. -/
def begun (w : World) (call : Nat) (actor : AuthUserSummary) (review_id : String) : World :=
  match get_review w.db actor review_id with
  | .error e => w.advance call (.done (some e))
  | .ok review => (w.advance call (.translating actor review_id review)).record w.db
      (.started call review_id)

/-- `translate` has read the policy. -/
def resolved (w : World) (call : Nat) (actor : AuthUserSummary) (review_id : String)
    (review : ReviewItem) (policy : Policy) : World :=
  match unsent policy review with
  | none => w.advance call (.calling actor review_id review policy.provider)
  | some item => match retranslation (!policy.enabled) item with
    | .error e => w.advance call (.done (some e))
    | .ok item => w.advance call (.applying actor review_id item)

/-- The provider has answered. -/
def received (w : World) (call : Nat) (actor : AuthUserSummary) (review_id : String)
    (review : ReviewItem) (provider : String) (outcome : Outcome) : World :=
  match retranslation (answered provider review.source_text outcome).1
      (answered provider review.source_text outcome).2 with
  | .error e => w.advance call (.done (some e))
  | .ok item => w.advance call (.applying actor review_id item)

/-- The last transaction of `retranslate_review`. -/
def written (w : World) (call : Nat) (actor : AuthUserSummary) (review_id : String)
    (item : TranslationItem) : World :=
  match apply_retranslation w.db actor review_id item with
  | .error e => w.advance call (.done (some e))
  | .ok db => (w.advance call (.done none)).record db (.overwritten call review_id)

def step (w : World) : Event → Option World
  | .create_review actor review_id review =>
    if w.db.translation_review_items.rows review_id = none ∧
        review.source_locale ∈ _SUPPORTED_SOURCE_LOCALES ∧
        review.target_locale ∈ _SUPPORTED_TARGET_LOCALES then
      some { w with db := create_review w.db actor review_id review }
    else none
  | .apply_review_action actor review_id payload now =>
    if payload.valid ∧ payload.action ≠ .retranslate then
      match apply_review_action w.db actor review_id payload now with
      | .error _ => some w
      | .ok db => some (w.record db (.reviewed review_id payload.action))
    else none
  | .retranslate_review call actor review_id => match w.calls call with
    | none => some (begun w call actor review_id)
    | some _ => none
  | .policy call policy => match w.calls call with
    | some (.translating actor review_id review) =>
      some (resolved w call actor review_id review policy)
    | _ => none
  | .provider call outcome => match w.calls call with
    | some (.calling actor review_id review provider) =>
      some (received w call actor review_id review provider outcome)
    | _ => none
  | .apply_retranslation call => match w.calls call with
    | some (.applying actor review_id item) => some (written w call actor review_id item)
    | _ => none
  | .abort call => match w.calls call with
    | some phase => if phase.review_id = none then none else some (w.advance call (.done none))
    | none => none

def machine : Machine World Event where
  Start := fun w => w.db.translation_review_items = Table.empty ∧
    w.db.translation_review_events = [] ∧ w.calls = (fun _ => none) ∧ w.log = []
  step := step

end moaworks.translation_operations
