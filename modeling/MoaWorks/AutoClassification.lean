-- The classification rules of the users: the tables that keep them, the calls that change them,
-- and what they decide about a message.
import Mathlib.Data.String.Basic
import MoaWorks.Lib.ChildRows
import MoaWorks.Lib.Machine
import MoaWorks.Lib.Raise
import MoaWorks.Lib.TableOrder
import MoaWorks.MailPolicies

namespace moaworks.mail_auto_classification_service

open mail_policies (Codec Condition ConditionField Context Operator condition_matches
  normalize_spam_domain normalize_spam_email)
open Raise (require found)

inductive Error
  | value_error (message : String)
  | conflict (message : String)
  | policy_conflict (message : String)
  | limit (message : String)
  | target_forbidden (message : String)
  /-- A constraint of the database. -/
  | database
  deriving DecidableEq, Repr

/-! ## Rows -/

/-- The user and his company. -/
structure Owner where
  company_id : String
  user_id : String
  deriving DecidableEq, Repr

/-- A row of `mail_auto_classification_policies`. -/
structure Policy where
  enabled : Bool
  version : Nat
  deriving DecidableEq, Repr

/-- A row of `mail_auto_classification_rules`. -/
structure RuleRow where
  owner : Owner
  name : String
  enabled : Bool
  priority : Nat
  version : Nat
  target_folder_id : Option String
  deriving DecidableEq, Repr

structure Db where
  policies : Table Owner Policy
  rules : Table String RuleRow
  /-- `mail_auto_classification_conditions`, by rule and position. -/
  conditions : Table (String × Nat) Condition
  /-- `mail_auto_classification_rule_tags`, by rule and position. -/
  rule_tags : Table (String × Nat) String
  /-- The owners of `mail_user_folders` and of `mail_tags`. -/
  folders : Table String Owner
  tags : Table String Owner

/-- The largest INTEGER. -/
def maxInteger : Nat := 2147483647

/-! ## Conditions -/

def _OPERATORS : ConditionField → List Operator
  | .sender_email | .recipient_email => [.equals, .contains]
  | .sender_domain => [.equals, .subdomain]
  | .subject => [.contains, .equals, .starts_with, .ends_with]
  | .body => [.contains]
  | .attachment => [.exists_, .missing]

def fromPolicies {α : Type} : Except mail_policies.Error α → Except Error α
  | .ok a => .ok a
  | .error (.value_error message) => .error (.value_error message)
  | .error _ => .error .database

variable (codec : Codec)

def normalize_condition_value (field : ConditionField) (operator : Operator)
    (value : Option String) : Except Error (Option String) := do
  require (operator ∈ _OPERATORS field) (.value_error "지원하지 않는 자동분류 조건입니다.")
  if field = .attachment then
    require (value = none ∨ value = some "") (.value_error "첨부 조건에는 값을 입력할 수 없습니다.")
    return none
  let candidate := Text.strip (value.getD "")
  require (candidate ≠ "") (.value_error "조건 값을 입력해 주세요.")
  if field = .sender_email ∨ field = .recipient_email then
    let normalized ← if operator = .equals then fromPolicies (normalize_spam_email codec candidate)
      else pure (Text.lower candidate)
    require (normalized.length ≤ 254) (.value_error "이메일 조건은 최대 254자입니다.")
    return some normalized
  if field = .sender_domain then
    let normalized ← fromPolicies (normalize_spam_domain codec candidate)
    return some normalized
  require (candidate.length ≤ 200) (.value_error "문자열 조건은 최대 200자입니다.")
  return some candidate

def _normalized_conditions (values : List Condition) : Except Error (List Condition) :=
  values.mapM (fun item => do
    let value ← normalize_condition_value codec item.field item.operator item.value
    return { item with value := value })

/-! ## Decisions -/

/-- A rule as `evaluate_recipient` has loaded it. -/
structure LoadedRule where
  id : String
  enabled : Bool
  priority : Nat
  target_folder_id : Option String
  conditions : List Condition
  tag_ids : List String
  deriving DecidableEq, Repr

structure RuleAction where
  folderApplied : Bool
  tagCount : Nat
  deriving DecidableEq, Repr

structure AutoClassificationDecision where
  matchedRuleIds : List String
  folderId : Option String
  tagIds : List String
  ruleActions : List (String × RuleAction)
  deriving DecidableEq, Repr

/-- `if tag_id not in tag_ids: …`, with the number of tags that came in. -/
def contribute (acc : List String × Nat) (tag_id : String) : List String × Nat :=
  if tag_id ∈ acc.1 then acc else (acc.1 ++ [tag_id], acc.2 + 1)

/-- One turn of the loop of `from_rules`. -/
def consider (context : Context) (d : AutoClassificationDecision) (rule : LoadedRule) :
    AutoClassificationDecision :=
  if rule.enabled && rule.conditions.all (fun item => condition_matches item context) then
    let target := rule.target_folder_id.filter (fun folder_id => folder_id != "")
    let tags := rule.tag_ids.foldl contribute (d.tagIds, 0)
    { matchedRuleIds := d.matchedRuleIds ++ [rule.id]
      folderId := d.folderId <|> target
      tagIds := tags.1
      ruleActions := d.ruleActions ++
        [(rule.id, ⟨d.folderId.isNone && target.isSome, tags.2⟩)] }
  else d

def byPriority (a b : LoadedRule) : Prop :=
  a.priority < b.priority ∨ a.priority = b.priority ∧ a.id ≤ b.id

instance : DecidableRel byPriority := fun a b =>
  inferInstanceAs (Decidable (a.priority < b.priority ∨ a.priority = b.priority ∧ a.id ≤ b.id))

def AutoClassificationDecision.from_rules (rules : List LoadedRule) (context : Context) :
    AutoClassificationDecision :=
  (rules.insertionSort byPriority).foldl (consider context) ⟨[], none, [], []⟩

/-- The rules of an owner, `ORDER BY priority, id`. -/
def rulesOf (db : Db) (owner : Owner) : List (String × RuleRow) :=
  (db.rules.orderedBy RuleRow.priority).filter (fun (_, row) => decide (row.owner = owner))

def load (db : Db) (rule : String × RuleRow) : LoadedRule where
  id := rule.1
  enabled := rule.2.enabled
  priority := rule.2.priority
  target_folder_id := rule.2.target_folder_id
  conditions := ChildRows.children db.conditions rule.1
  tag_ids := ChildRows.children db.rule_tags rule.1

def evaluate_recipient (db : Db) (owner : Owner) (context : Context) :
    AutoClassificationDecision :=
  match db.policies.rows owner with
  | none => ⟨[], none, [], []⟩
  | some policy =>
    if policy.enabled then
      AutoClassificationDecision.from_rules
        (((rulesOf db owner).filter (fun (_, row) => row.enabled)).map (load db)) context
    else ⟨[], none, [], []⟩

/-! ## Calls -/

structure RulePayload where
  name : String
  enabled : Bool
  conditions : List Condition
  targetFolderId : Option String
  tagIds : List String
  deriving DecidableEq, Repr

def _assert_name (db : Db) (owner : Owner) (name : String) (exclude : Option String) :
    Except Error Unit :=
  require (db.rules.select (fun id row => decide (row.owner = owner) &&
    decide (Text.lower row.name = Text.lower name) && decide (exclude ≠ some id)) = ∅)
    (.conflict "같은 이름의 규칙이 있습니다.")

def _assert_targets (db : Db) (owner : Owner) (folder_id : Option String)
    (tag_ids : List String) : Except Error Unit := do
  require (∀ id ∈ folder_id, id ≠ "" → db.folders.rows id = some owner)
    (.target_forbidden "대상 메일함에 접근할 수 없습니다.")
  require (∀ id ∈ tag_ids, db.tags.rows id = some owner)
    (.target_forbidden "대상 태그에 접근할 수 없습니다.")

/-- The rows of the conditions and the tags, with what the tables check of them. -/
def _replace_children (rule_id : String) (conditions : List Condition) (tag_ids : List String)
    (db : Db) : Except Error Db := do
  require (conditions.length ≤ 5 ∧ tag_ids.length ≤ 5 ∧ tag_ids.Nodup) .database
  return { db with
    conditions := ChildRows.replace db.conditions rule_id conditions
    rule_tags := ChildRows.replace db.rule_tags rule_id tag_ids }

/-- Another rule of the owner with the priority or the name, which the unique indexes refuse. -/
def clash (id : String) (row : RuleRow) (k : String) (r : RuleRow) : Bool :=
  decide (k ≠ id) && decide (r.owner = row.owner) &&
    (decide (r.priority = row.priority) || decide (Text.lower r.name = Text.lower row.name))

/-- A written row, when its numbers fit and no unique index refuses it. -/
def Db.write (id : String) (row : RuleRow) (db : Db) : Except Error Db := do
  require (row.priority ≤ maxInteger ∧ row.version ≤ maxInteger ∧
    db.rules.select (clash id row) = ∅) .database
  return { db with rules := db.rules.set id row }

/-- A folder of the row, which the foreign key wants to exist. -/
def folderExists (db : Db) (folder_id : Option String) : Prop :=
  ∀ id ∈ folder_id, (db.folders.rows id).isSome

instance (db : Db) (folder_id : Option String) : Decidable (folderExists db folder_id) :=
  inferInstanceAs (Decidable (∀ id ∈ folder_id, (db.folders.rows id).isSome))

def MAX_RULES : Nat := 100

def create_rule (owner : Owner) (rule_id : String) (payload : RulePayload) (db : Db) :
    Except Error Db := do
  let conditions ← _normalized_conditions codec payload.conditions
  _assert_name db owner payload.name none
  let rows := rulesOf db owner
  require (rows.length < MAX_RULES) (.limit "자동분류 규칙은 최대 100개입니다.")
  _assert_targets db owner payload.targetFolderId payload.tagIds
  let priority := (rows.map (fun (_, row) => row.priority)).foldr max 0 + 10
  require (db.rules.rows rule_id = none ∧ folderExists db payload.targetFolderId) .database
  let db ← db.write rule_id
    ⟨owner, payload.name, payload.enabled, priority, 1, payload.targetFolderId⟩
  _replace_children rule_id conditions payload.tagIds db

def update_rule (owner : Owner) (rule_id : String) (payload : RulePayload) (version : Nat)
    (db : Db) : Except Error Db := do
  let conditions ← _normalized_conditions codec payload.conditions
  let row ← found ((db.rules.rows rule_id).filter (fun row => decide (row.owner = owner)))
    (.target_forbidden "규칙에 접근할 수 없습니다.")
  require (row.version = version) (.conflict "다른 위치에서 규칙이 변경되었습니다.")
  _assert_name db owner payload.name (some rule_id)
  _assert_targets db owner payload.targetFolderId payload.tagIds
  require (folderExists db payload.targetFolderId) .database
  let db ← db.write rule_id { row with
    name := payload.name
    enabled := payload.enabled
    target_folder_id := payload.targetFolderId
    version := row.version + 1 }
  _replace_children rule_id conditions payload.tagIds db

def delete_rules (owner : Owner) (ruleIds : List String) (db : Db) : Except Error Db := do
  require (∀ id ∈ ruleIds, (db.rules.rows id).any (fun row => decide (row.owner = owner)) = true)
    (.target_forbidden "규칙에 접근할 수 없습니다.")
  -- ON DELETE CASCADE
  return { db with
    rules := db.rules.filter (fun id _ => decide (id ∉ ruleIds))
    conditions := db.conditions.filter (fun k _ => decide (k.1 ∉ ruleIds))
    rule_tags := db.rule_tags.filter (fun k _ => decide (k.1 ∉ ruleIds)) }

/-- `UPDATE … SET priority = … WHERE id = …`: the unique index is checked with each row. -/
def setPriority (owner : Owner) (db : Db) (entry : String × Nat) : Except Error Db :=
  match (db.rules.rows entry.1).filter (fun row => decide (row.owner = owner)) with
  | none => .ok db
  | some row => db.write entry.1 { row with priority := entry.2 }

def currentVersion (db : Db) (owner : Owner) : Nat :=
  ((db.policies.rows owner).map Policy.version).getD 1

/-- `temporary_priority_offset`. -/
def temporaryOffset (rows : List (String × RuleRow)) : Nat :=
  (rows.map (fun (_, row) => row.priority)).foldr max 0 + (rows.length + 1) * 10

/-- The next version of the policy, which may have no row yet. -/
def advancePolicy (owner : Owner) (enabled : Option Bool) (db : Db) : Except Error Db :=
  match db.policies.rows owner with
  | none => .ok { db with policies := db.policies.set owner ⟨enabled.getD false, 2⟩ }
  | some policy => do
    require (policy.version + 1 ≤ maxInteger) .database
    let next : Policy := ⟨enabled.getD policy.enabled, policy.version + 1⟩
    return { db with policies := db.policies.set owner next }

/-- `scan` is the order in which the first UPDATE comes to the rows. -/
def reorder_rules (owner : Owner) (scan ruleIds : List String) (version : Nat) (db : Db) :
    Except Error Db := do
  require (currentVersion db owner = version) (.policy_conflict "다른 위치에서 정책이 변경되었습니다.")
  let owned_rows := rulesOf db owner
  require (owned_rows.length = ruleIds.length ∧
    (owned_rows.map Prod.fst).toFinset = ruleIds.toFinset)
    (.target_forbidden "전체 규칙 순서가 필요합니다.")
  let offset := temporaryOffset owned_rows
  let raised := scan.filterMap (fun id => (db.rules.rows id).map (fun row =>
    (id, row.priority + offset)))
  let db ← raised.foldlM (setPriority owner) db
  let db ← (ruleIds.zipIdx 1).foldlM (fun db (id, index) =>
    setPriority owner db (id, index * 10)) db
  advancePolicy owner none db

def update_policy (owner : Owner) (enabled : Bool) (version : Nat) (db : Db) :
    Except Error Db := do
  require (currentVersion db owner = version) (.policy_conflict "다른 위치에서 정책이 변경되었습니다.")
  advancePolicy owner (some enabled) db

/-! ## Runs -/

/-- The list that a user thinks of. -/
structure Rule where
  id : String
  name : String
  enabled : Bool
  version : Nat
  target_folder_id : Option String
  conditions : List Condition
  tag_ids : List String
  deriving DecidableEq, Repr

inductive Call
  | create_rule (owner : Owner) (rule_id : String) (payload : RulePayload)
  | update_rule (owner : Owner) (rule_id : String) (payload : RulePayload) (version : Nat)
  | delete_rules (owner : Owner) (ruleIds : List String)
  | reorder_rules (owner : Owner) (scan ruleIds : List String) (version : Nat)
  | update_policy (owner : Owner) (enabled : Bool) (version : Nat)

def Call.owner : Call → Owner
  | .create_rule owner _ _ | .update_rule owner _ _ _ | .delete_rules owner _
  | .reorder_rules owner _ _ _ | .update_policy owner _ _ => owner

def Call.perform : Call → Db → Except Error Db
  | .create_rule owner rule_id payload =>
    mail_auto_classification_service.create_rule codec owner rule_id payload
  | .update_rule owner rule_id payload version =>
    mail_auto_classification_service.update_rule codec owner rule_id payload version
  | .delete_rules owner ruleIds => mail_auto_classification_service.delete_rules owner ruleIds
  | .reorder_rules owner scan ruleIds version =>
    mail_auto_classification_service.reorder_rules owner scan ruleIds version
  | .update_policy owner enabled version =>
    mail_auto_classification_service.update_policy owner enabled version

/-- The scan comes to each rule of the owner once. -/
def Call.scans (db : Db) : Call → Prop
  | .reorder_rules owner scan _ _ => scan.Perm ((rulesOf db owner).map Prod.fst)
  | _ => True

instance (db : Db) : (call : Call) → Decidable (call.scans db)
  | .reorder_rules owner scan _ _ =>
    inferInstanceAs (Decidable (scan.Perm ((rulesOf db owner).map Prod.fst)))
  | .create_rule .. | .update_rule .. | .delete_rules .. | .update_policy .. => isTrue trivial

/-- The rule that a payload asks for. -/
def ruleFor (id : String) (version : Nat) (payload : RulePayload) : Rule where
  id := id
  name := payload.name
  enabled := payload.enabled
  version := version
  target_folder_id := payload.targetFolderId
  conditions := match _normalized_conditions codec payload.conditions with
    | .ok conditions => conditions
    | .error _ => []
  tag_ids := payload.tagIds

/-- What a call that succeeds does with the list of its owner: it appends, replaces in place,
removes or permutes. -/
def Call.act : Call → List Rule → List Rule
  | .create_rule _ rule_id payload, rules => rules ++ [ruleFor codec rule_id 1 payload]
  | .update_rule _ rule_id payload version, rules => rules.map (fun rule =>
    if rule.id = rule_id then ruleFor codec rule_id (version + 1) payload else rule)
  | .delete_rules _ ruleIds, rules => rules.filter (fun rule => decide (rule.id ∉ ruleIds))
  | .reorder_rules _ _ ruleIds _, rules => ruleIds.filterMap (fun id =>
    rules.find? (fun rule => decide (rule.id = id)))
  | .update_policy _ _ _, rules => rules

/-- The database, and the list that each user thinks of. -/
structure World where
  db : Db
  lists : Owner → List Rule

/-- A call of a user, or folders and tags that have come or gone. -/
inductive Event
  | call (call : Call)
  | targets (folders tags : Table String Owner)

def step (w : World) : Event → Option World
  | .call call =>
    if call.scans w.db then
      match call.perform codec w.db with
      | .error _ => some w
      | .ok db => some ⟨db, fun owner =>
        if owner = call.owner then call.act codec (w.lists owner) else w.lists owner⟩
    else none
  | .targets folders tags => some { w with db := { w.db with folders := folders, tags := tags } }

def machine : Machine World Event where
  Start := fun w => w.db.policies = .empty ∧ w.db.rules = .empty ∧ w.db.conditions = .empty ∧
    w.db.rule_tags = .empty ∧ ∀ owner, w.lists owner = []
  step := step codec

end moaworks.mail_auto_classification_service
