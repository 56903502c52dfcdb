-- The laws of the classification rules: the tables hold the list that the user thinks of, and a
-- message is decided by that list.
import MoaWorks.AutoClassification

namespace moaworks.mail_auto_classification_service

open mail_policies (Codec Condition Context condition_matches)
open Raise (require require_ok found found_ok bind_ok)

/-! ## What a list decides -/

def Rule.folder (rule : Rule) : Option String :=
  rule.target_folder_id.filter (fun folder_id => folder_id != "")

def Rule.matches (context : Context) (rule : Rule) : Bool :=
  rule.enabled && rule.conditions.all (fun item => condition_matches item context)

/-- The enabled rules that match. -/
def matching (context : Context) (rules : List Rule) : List Rule :=
  rules.filter (Rule.matches context)

/-- What a matching rule adds to those before it: the folder, when none of them has one, and the tags
that none of them has. -/
def contribution (before : List Rule) (rule : Rule) : RuleAction where
  folderApplied := (before.findSome? Rule.folder).isNone && rule.folder.isSome
  tagCount := (rule.tag_ids.removeAll (before.flatMap Rule.tag_ids)).eraseDups.length

/-- Each matching rule with its contribution. -/
def contributions (before : List Rule) : List Rule → List (String × RuleAction)
  | [] => []
  | rule :: rules => (rule.id, contribution before rule) :: contributions (before ++ [rule]) rules

/-- The first folder, and all the tags in order. -/
def decisionOf (context : Context) (rules : List Rule) : AutoClassificationDecision where
  matchedRuleIds := (matching context rules).map Rule.id
  folderId := (matching context rules).findSome? Rule.folder
  tagIds := ((matching context rules).flatMap Rule.tag_ids).eraseDups
  ruleActions := contributions [] (matching context rules)

theorem contributions_append (before rules : List Rule) (rule : Rule) :
    contributions before (rules ++ [rule]) =
      contributions before rules ++ [(rule.id, contribution (before ++ rules) rule)] := by
  induction rules generalizing before with
  | nil => simp [contributions]
  | cons r rules ih =>
    rw [List.cons_append, contributions, ih, contributions, List.cons_append, List.append_assoc,
      List.singleton_append]

theorem eraseDups_snoc (l : List String) (a : String) :
    (l ++ [a]).eraseDups = if a ∈ l then l.eraseDups else l.eraseDups ++ [a] := by
  rw [List.eraseDups_append, List.cons_removeAll, List.nil_removeAll]
  by_cases ha : a ∈ l
  · simp [ha]
  · simp [ha, List.eraseDups_cons]

theorem removeAll_snoc (l old : List String) (a : String) :
    (l ++ [a]).removeAll old = if a ∈ old then l.removeAll old else l.removeAll old ++ [a] := by
  unfold List.removeAll
  rw [List.filter_append]
  by_cases ha : a ∈ old
  · simp [ha]
  · simp [ha]

theorem mem_removeAll {l old : List String} {a : String} :
    a ∈ l.removeAll old ↔ a ∈ l ∧ a ∉ old := by
  unfold List.removeAll
  simp

/-- The tags that come in, and how many they are. -/
theorem foldl_contribute (old tags : List String) :
    tags.foldl contribute (old.eraseDups, 0) =
      ((old ++ tags).eraseDups, (tags.removeAll old).eraseDups.length) := by
  induction tags using List.reverseRecOn with
  | nil => simp
  | append_singleton tags tag ih =>
    rw [List.foldl_append, ih, List.foldl_cons, List.foldl_nil, ← List.append_assoc, eraseDups_snoc,
      removeAll_snoc]
    unfold contribute
    by_cases htag : tag ∈ old ++ tags
    · rw [if_pos (List.mem_eraseDups.2 htag), if_pos htag]
      by_cases hold : tag ∈ old
      · rw [if_pos hold]
      · have hnew : tag ∈ tags := (List.mem_append.1 htag).resolve_left hold
        rw [if_neg hold, eraseDups_snoc, if_pos (mem_removeAll.2 ⟨hnew, hold⟩)]
    · have hboth := not_or.1 (fun h => htag (List.mem_append.2 h))
      rw [if_neg (fun h => htag (List.mem_eraseDups.1 h)), if_neg htag, if_neg hboth.1,
        eraseDups_snoc, if_neg (fun h => hboth.2 (mem_removeAll.1 h).1), List.length_append]
      rfl

/-- The rule that a row and its children say. -/
def ruleAt (db : Db) (rule : String × RuleRow) : Rule where
  id := rule.1
  name := rule.2.name
  enabled := rule.2.enabled
  version := rule.2.version
  target_folder_id := rule.2.target_folder_id
  conditions := ChildRows.children db.conditions rule.1
  tag_ids := ChildRows.children db.rule_tags rule.1

/-- The list that the tables hold. -/
def stored (db : Db) (owner : Owner) : List Rule := (rulesOf db owner).map (ruleAt db)

theorem matching_snoc (context : Context) (rules : List Rule) (rule : Rule) :
    matching context (rules ++ [rule]) =
      if rule.matches context then matching context rules ++ [rule] else matching context rules := by
  unfold matching
  rw [List.filter_append]
  cases hmatch : rule.matches context with
  | true =>
    rw [if_pos rfl, List.filter_cons_of_pos hmatch]
    rfl
  | false =>
    rw [if_neg Bool.false_ne_true, List.filter_cons_of_neg (ne_true_of_eq_false hmatch)]
    exact List.append_nil _

theorem decisionOf_snoc (context : Context) (rules : List Rule) {rule : Rule}
    (hmatch : rule.matches context = true) :
    decisionOf context (rules ++ [rule]) =
      { matchedRuleIds := (matching context rules).map Rule.id ++ [rule.id]
        folderId := (matching context rules).findSome? Rule.folder <|> rule.folder
        tagIds := ((matching context rules).flatMap Rule.tag_ids ++ rule.tag_ids).eraseDups
        ruleActions := contributions [] (matching context rules) ++
          [(rule.id, contribution (matching context rules) rule)] } := by
  unfold decisionOf
  rw [matching_snoc, if_pos hmatch, List.map_append, List.findSome?_append, List.flatMap_append,
    contributions_append]
  simp

/-- One turn of the loop extends the list by one rule. -/
theorem consider_decisionOf (context : Context) (rules : List Rule) (db : Db)
    (entry : String × RuleRow) :
    consider context (decisionOf context rules) (load db entry) =
      decisionOf context (rules ++ [ruleAt db entry]) := by
  unfold consider
  cases hmatch : (ruleAt db entry).matches context with
  | true =>
    have htags := foldl_contribute ((matching context rules).flatMap Rule.tag_ids)
      (ruleAt db entry).tag_ids
    have hload : ((load db entry).enabled && (load db entry).conditions.all (fun item =>
        condition_matches item context)) = true := hmatch
    rw [decisionOf_snoc context rules hmatch, if_pos hload]
    change (load db entry).tag_ids.foldl contribute ((decisionOf context rules).tagIds, 0) = _
      at htags
    simp only [htags]
    rfl
  | false =>
    have hload : ¬((load db entry).enabled && (load db entry).conditions.all (fun item =>
        condition_matches item context)) = true := ne_true_of_eq_false hmatch
    rw [if_neg hload]
    unfold decisionOf
    rw [matching_snoc, if_neg (ne_true_of_eq_false hmatch)]

theorem foldl_consider (context : Context) (db : Db) (rules : List (String × RuleRow)) :
    (rules.map (load db)).foldl (consider context) ⟨[], none, [], []⟩ =
      decisionOf context (rules.map (ruleAt db)) := by
  induction rules using List.reverseRecOn with
  | nil => rfl
  | append_singleton rules entry ih =>
    rw [List.map_append, List.foldl_append, ih, List.map_append]
    exact consider_decisionOf context _ db entry

/-! ## The order of the rows -/

/-- The numbers fit, and no two rules of one owner have the same priority or the same name. -/
structure Inv (db : Db) : Prop where
  fits : ∀ id row, db.rules.rows id = some row →
    row.priority ≤ maxInteger ∧ row.version ≤ maxInteger
  priorities : ∀ id id' row row', db.rules.rows id = some row → db.rules.rows id' = some row' →
    row.owner = row'.owner → row.priority = row'.priority → id = id'
  names : ∀ id id' row row', db.rules.rows id = some row → db.rules.rows id' = some row' →
    row.owner = row'.owner → Text.lower row.name = Text.lower row'.name → id = id'

theorem mem_rulesOf {db : Db} {owner : Owner} {id : String} {row : RuleRow} :
    (id, row) ∈ rulesOf db owner ↔ db.rules.rows id = some row ∧ row.owner = owner := by
  unfold rulesOf
  rw [List.mem_filter, Table.mem_orderedBy]
  exact and_congr_right fun _ => decide_eq_true_iff

theorem nodup_rulesOf (db : Db) (owner : Owner) : ((rulesOf db owner).map Prod.fst).Nodup :=
  (Table.nodup_orderedBy db.rules RuleRow.priority).sublist (List.filter_sublist.map _)

theorem sorted_rulesOf {db : Db} (h : Inv db) (owner : Owner) :
    (rulesOf db owner).Pairwise (fun a b => a.2.priority < b.2.priority) := by
  refine List.Pairwise.imp_of_mem ?_
    ((Table.pairwise_orderedBy db.rules RuleRow.priority).filter
      (fun x => decide (x.2.owner = owner)))
  rintro ⟨id, row⟩ ⟨id', row'⟩ hmem hmem' ⟨hle, hlt⟩
  obtain ⟨hrow, howner⟩ := mem_rulesOf.1 hmem
  obtain ⟨hrow', howner'⟩ := mem_rulesOf.1 hmem'
  refine lt_of_le_of_ne hle fun heq => ?_
  obtain rfl := h.priorities id id' row row' hrow hrow' (howner.trans howner'.symm) heq
  exact absurd (hlt heq.ge) (lt_irrefl _)

/-- Rows in increasing order of priority are the rows of the owner, when they are as many. -/
theorem rulesOf_eq {db : Db} {owner : Owner} {l : List (String × RuleRow)}
    (hsorted : l.Pairwise (fun a b => a.2.priority < b.2.priority))
    (hmem : ∀ id row, (id, row) ∈ l ↔ db.rules.rows id = some row ∧ row.owner = owner) :
    rulesOf db owner = l := by
  have hnodup : l.Nodup := hsorted.imp fun h heq => absurd (heq ▸ h) (lt_irrefl _)
  have hperm : (rulesOf db owner).Perm l := by
    refine (List.perm_ext_iff_of_nodup (List.Nodup.of_map _ (nodup_rulesOf db owner)) hnodup).2 ?_
    rintro ⟨id, row⟩
    rw [mem_rulesOf, hmem]
  refine hperm.eq_of_pairwise ?_
    ((Table.pairwise_orderedBy db.rules RuleRow.priority).filter _)
    (hsorted.imp fun h => ⟨h.le, fun h' => absurd h (not_lt.2 h')⟩)
  rintro a b _ _ ⟨hab, hab'⟩ ⟨hba, hba'⟩
  exact absurd (hab' hba) (lt_asymm (hba' hab))

theorem rulesOf_congr {db db' : Db} {owner : Owner}
    (h : ∀ id row, row.owner = owner → (db'.rules.rows id = some row ↔ db.rules.rows id = some row)) :
    rulesOf db' owner = rulesOf db owner := by
  refine Table.filter_orderedBy_congr (p := fun row : RuleRow => decide (row.owner = owner))
    fun id => ?_
  refine Option.ext fun row => ?_
  rw [Option.filter_eq_some_iff, Option.filter_eq_some_iff]
  constructor
  · rintro ⟨hrow, howner⟩
    exact ⟨(h id row (of_decide_eq_true howner)).1 hrow, howner⟩
  · rintro ⟨hrow, howner⟩
    exact ⟨(h id row (of_decide_eq_true howner)).2 hrow, howner⟩

/-- What is stored for an owner depends on his rows and on their children. -/
theorem stored_congr {db db' : Db} {owner : Owner}
    (h : ∀ id row, row.owner = owner → (db'.rules.rows id = some row ↔ db.rules.rows id = some row))
    (hchildren : ∀ id row, db.rules.rows id = some row → row.owner = owner →
      ChildRows.children db'.conditions id = ChildRows.children db.conditions id ∧
      ChildRows.children db'.rule_tags id = ChildRows.children db.rule_tags id) :
    stored db' owner = stored db owner := by
  unfold stored
  rw [rulesOf_congr h]
  refine List.map_congr_left ?_
  rintro ⟨id, row⟩ hmem
  obtain ⟨hrow, howner⟩ := mem_rulesOf.1 hmem
  obtain ⟨hconditions, htags⟩ := hchildren id row hrow howner
  unfold ruleAt
  rw [hconditions, htags]

/-- With the policy enabled, the list decides. -/
theorem evaluate_recipient_eq {db : Db} (h : Inv db) {owner : Owner} {policy : Policy}
    (hpolicy : db.policies.rows owner = some policy) (henabled : policy.enabled = true)
    (context : Context) :
    evaluate_recipient db owner context = decisionOf context (stored db owner) := by
  unfold evaluate_recipient AutoClassificationDecision.from_rules
  rw [hpolicy]
  dsimp only
  rw [if_pos henabled, List.Pairwise.insertionSort_eq, foldl_consider]
  · unfold decisionOf
    have hmatching : matching context (((rulesOf db owner).filter (fun x => x.2.enabled)).map
        (ruleAt db)) = matching context (stored db owner) := by
      unfold matching stored
      rw [List.filter_map, List.filter_map, List.filter_filter]
      refine congrArg _ (List.filter_congr fun entry _ => ?_)
      rw [Function.comp_apply]
      unfold Rule.matches ruleAt
      cases entry.2.enabled <;> simp
    rw [hmatching]
  · rw [List.pairwise_map]
    exact ((sorted_rulesOf h owner).filter _).imp fun hlt => .inl hlt

end moaworks.mail_auto_classification_service
