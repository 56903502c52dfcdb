-- Which rule of automatic forwarding a sender falls under does not hang on the order of the rules:
-- the exact address first, then the longest domain above the sender's, then the defaults.
import MoaWorks.MailPolicies
import MoaWorks.Lib.TextLaws
import Mathlib.Data.List.MinMax

namespace moaworks.mail_auto_forwarding_service

open mail_policies (Codec Error normalize_forward_email endswith)

/-- A rule as `from_rules` reads it; what it may leave out is optional. -/
structure Rule where
  id : String
  matcher_type : String
  matcher_value : String
  action : String
  enabled : Option Bool
  target_emails : Option (List String)
  deriving DecidableEq, Repr

/-- `rule.get("enabled", True)` -/
def Rule.isEnabled (rule : Rule) : Bool := rule.enabled.getD true

def Rule.isExact (sender : String) (rule : Rule) : Bool :=
  decide (rule.matcher_type = "sender_email") && decide (rule.matcher_value = sender)

def Rule.isDomain (sender_domain : String) (rule : Rule) : Bool :=
  decide (rule.matcher_type = "sender_domain") &&
    (decide (sender_domain = rule.matcher_value) || endswith sender_domain ("." ++ rule.matcher_value))

/-- `exact[0] if exact else max(domains, key=..., default=None)` -/
def matched (rules : List Rule) (sender : String) : Option Rule :=
  let sender_domain := Text.afterLast '@' sender
  let enabled := rules.filter Rule.isEnabled
  let exact := enabled.filter (Rule.isExact sender)
  let domains := enabled.filter (Rule.isDomain sender_domain)
  match exact with
  | rule :: _ => some rule
  | [] => domains.argmax (fun rule => rule.matcher_value.length)

/-- The addresses that are selected, as they stand in the rule or in the defaults. -/
def selected (defaults : List String) : Option Rule → List String
  | none => defaults
  | some rule => if rule.action = "skip" then [] else rule.target_emails.getD []

variable (codec : Codec)

/-- The loop over the addresses, with the result so far. -/
def collect : List String → List String → Except Error (List String)
  | [], result => .ok result
  | value :: values, result => do
    let normalized ← normalize_forward_email codec value
    collect values (if normalized ∈ result then result else result ++ [normalized])

structure AutoForwardDecision where
  targetEmails : List String
  exceptionId : Option String
  deriving DecidableEq, Repr

def AutoForwardDecision.from_rules (defaults : List String) (rules : List Rule)
    (sender_email : String) : Except Error AutoForwardDecision := do
  let sender ← normalize_forward_email codec sender_email
  let rule := matched rules sender
  let result ← collect codec (selected defaults rule) []
  return ⟨result, rule.map Rule.id⟩

/-! ## The rule of a sender -/

/-- The labels of a domain. -/
def labels (domain : String) : List (List Char) := domain.toList.splitOn '.'

/-- The rule is enabled and is about the sender's domain or one above it. -/
def Covers (sender : String) (rule : Rule) : Prop :=
  rule.isEnabled = true ∧ rule.matcher_type = "sender_domain" ∧
    labels rule.matcher_value <:+ labels (Text.afterLast '@' sender)

/-- The rule is enabled and is about the sender's address. -/
def Names (sender : String) (rule : Rule) : Prop :=
  rule.isEnabled = true ∧ rule.matcher_type = "sender_email" ∧ rule.matcher_value = sender

/-- What a sender falls under: a rule that names it; without one, the rule with the most labels of
those that cover it; without one, none. -/
inductive FallsUnder (rules : List Rule) (sender : String) : Option Rule → Prop
  | exact (rule : Rule) (hmem : rule ∈ rules) (hnames : Names sender rule) :
    FallsUnder rules sender (some rule)
  | domain (rule : Rule) (hmem : rule ∈ rules) (hnone : ∀ r ∈ rules, ¬Names sender r)
    (hcovers : Covers sender rule)
    (hlongest : ∀ r ∈ rules, Covers sender r → r ≠ rule →
      (labels r.matcher_value).length < (labels rule.matcher_value).length) :
    FallsUnder rules sender (some rule)
  | default (hnone : ∀ r ∈ rules, ¬Names sender r) (huncovered : ∀ r ∈ rules, ¬Covers sender r) :
    FallsUnder rules sender none

/-- What tells one rule from another. -/
def Rule.key (rule : Rule) : String × String := (rule.matcher_type, rule.matcher_value)

theorem isExact_iff {sender : String} {rule : Rule} :
    rule.isEnabled = true ∧ rule.isExact sender = true ↔ Names sender rule := by
  unfold Rule.isExact Names
  rw [Bool.and_eq_true, decide_eq_true_iff, decide_eq_true_iff]

theorem isDomain_iff {sender : String} {rule : Rule} :
    rule.isEnabled = true ∧ rule.isDomain (Text.afterLast '@' sender) = true ↔
      Covers sender rule := by
  unfold Rule.isDomain Covers labels endswith
  rw [Bool.and_eq_true, Bool.or_eq_true, decide_eq_true_iff, decide_eq_true_iff, decide_eq_true_iff,
    Text.splitOn_suffix, String.toList_append, String.toList_inj]
  exact Iff.rfl

theorem eq_of_labels {v w : String} (h : labels v = labels w) : v = w := by
  have hjoin := congrArg (List.intercalate ['.']) h
  unfold labels at hjoin
  rw [List.intercalate_splitOn, List.intercalate_splitOn] at hjoin
  exact String.toList_inj.1 hjoin

/-- A value whose labels end those of another is the other, or is shorter. -/
theorem shorter_of_labels {v w : String} (h : labels v <:+ labels w) :
    v = w ∨ v.length < w.length := by
  rcases Text.splitOn_suffix.1 h with heq | hsuffix
  · exact .inl (String.toList_inj.1 heq).symm
  · right
    have hlength := hsuffix.length_le
    rw [List.length_cons, String.length_toList, String.length_toList] at hlength
    exact hlength

/-- Of the rules that cover a sender, the one with the longest value has the most labels. -/
theorem most_labels {rules : List Rule} {sender : String} {rule r : Rule}
    (hdistinct : (rules.map Rule.key).Nodup) (hrule : rule ∈ rules) (hr : r ∈ rules)
    (hcovers : Covers sender rule) (hcovers' : Covers sender r) (hne : r ≠ rule)
    (hlongest : r.matcher_value.length ≤ rule.matcher_value.length) :
    (labels r.matcher_value).length < (labels rule.matcher_value).length := by
  have hvalues : r.matcher_value ≠ rule.matcher_value := by
    intro hvalue
    refine hne (List.inj_on_of_nodup_map hdistinct hr hrule ?_)
    unfold Rule.key
    rw [hvalue, hcovers.2.1, hcovers'.2.1]
  rcases List.suffix_or_suffix_of_suffix hcovers.2.2 hcovers'.2.2 with hsuffix | hsuffix
  · rcases shorter_of_labels hsuffix with heq | hlt
    · exact absurd heq.symm hvalues
    · exact absurd hlongest (Nat.not_le_of_lt hlt)
  · refine Nat.lt_of_le_of_ne hsuffix.length_le (fun heq => hvalues ?_)
    exact eq_of_labels (hsuffix.eq_of_length heq)

theorem matched_fallsUnder {rules : List Rule} (hdistinct : (rules.map Rule.key).Nodup)
    (sender : String) : FallsUnder rules sender (matched rules sender) := by
  have hexact : ∀ r, r ∈ (rules.filter Rule.isEnabled).filter (Rule.isExact sender) ↔
      r ∈ rules ∧ Names sender r := by
    intro r
    rw [List.mem_filter, List.mem_filter, and_assoc, isExact_iff]
  have hdomain : ∀ r, r ∈ (rules.filter Rule.isEnabled).filter
      (Rule.isDomain (Text.afterLast '@' sender)) ↔ r ∈ rules ∧ Covers sender r := by
    intro r
    rw [List.mem_filter, List.mem_filter, and_assoc, isDomain_iff]
  unfold matched
  dsimp only
  split
  · rename_i rule rest hlist
    have hmem := (hexact rule).1 (by rw [hlist]; exact List.mem_cons_self)
    exact .exact rule hmem.1 hmem.2
  · rename_i hlist
    have hnone : ∀ r ∈ rules, ¬Names sender r := by
      intro r hr hnames
      have hmem := (hexact r).2 ⟨hr, hnames⟩
      rw [hlist] at hmem
      cases hmem
    cases hmax : ((rules.filter Rule.isEnabled).filter
      (Rule.isDomain (Text.afterLast '@' sender))).argmax (fun r => r.matcher_value.length) with
    | none =>
      refine .default hnone (fun r hr hcovers => ?_)
      have hmem := (hdomain r).2 ⟨hr, hcovers⟩
      rw [List.argmax_eq_none.1 hmax] at hmem
      cases hmem
    | some rule =>
      obtain ⟨hrule, hcovers⟩ := (hdomain rule).1 (List.argmax_mem hmax)
      refine .domain rule hrule hnone hcovers (fun r hr hcovers' hne => ?_)
      refine most_labels hdistinct hrule hr hcovers hcovers' hne ?_
      exact List.le_of_mem_argmax (f := fun r : Rule => r.matcher_value.length)
        ((hdomain r).2 ⟨hr, hcovers'⟩) hmax

/-- A sender falls under one rule at most. -/
theorem FallsUnder.unique {rules : List Rule} (hdistinct : (rules.map Rule.key).Nodup)
    {sender : String} {rule rule' : Option Rule} (h : FallsUnder rules sender rule)
    (h' : FallsUnder rules sender rule') : rule = rule' := by
  cases h with
  | exact r hr hnames =>
    cases h' with
    | exact r' hr' hnames' =>
      refine congrArg some (List.inj_on_of_nodup_map hdistinct hr hr' ?_)
      unfold Rule.key
      rw [hnames.2.1, hnames.2.2, hnames'.2.1, hnames'.2.2]
    | domain _ _ hnone => exact absurd hnames (hnone r hr)
    | default hnone => exact absurd hnames (hnone r hr)
  | domain r hr hnone hcovers hlongest =>
    cases h' with
    | exact r' hr' hnames' => exact absurd hnames' (hnone r' hr')
    | domain r' hr' _ hcovers' hlongest' =>
      by_contra hne
      have hlt := hlongest r' hr' hcovers' (fun h => hne (congrArg some h.symm))
      have hgt := hlongest' r hr hcovers (fun h => hne (congrArg some h))
      exact Nat.lt_asymm hlt hgt
    | default _ huncovered => exact absurd hcovers (huncovered r hr)
  | default hnone huncovered =>
    cases h' with
    | exact r' hr' hnames' => exact absurd hnames' (hnone r' hr')
    | domain r' hr' _ hcovers' => exact absurd hcovers' (huncovered r' hr')
    | default => rfl

theorem FallsUnder.perm {rules rules' : List Rule} (hperm : rules.Perm rules') {sender : String}
    {rule : Option Rule} (h : FallsUnder rules sender rule) : FallsUnder rules' sender rule := by
  cases h with
  | exact r hr hnames => exact .exact r (hperm.mem_iff.1 hr) hnames
  | domain r hr hnone hcovers hlongest =>
    exact .domain r (hperm.mem_iff.1 hr) (fun r' hr' => hnone r' (hperm.mem_iff.2 hr')) hcovers
      (fun r' hr' => hlongest r' (hperm.mem_iff.2 hr'))
  | default hnone huncovered =>
    exact .default (fun r' hr' => hnone r' (hperm.mem_iff.2 hr'))
      (fun r' hr' => huncovered r' (hperm.mem_iff.2 hr'))

theorem matched_perm {rules rules' : List Rule} (hdistinct : (rules.map Rule.key).Nodup)
    (hperm : rules'.Perm rules) (sender : String) : matched rules' sender = matched rules sender := by
  have hdistinct' : (rules'.map Rule.key).Nodup := (hperm.map Rule.key).nodup_iff.2 hdistinct
  exact ((matched_fallsUnder hdistinct' sender).perm hperm).unique hdistinct
    (matched_fallsUnder hdistinct sender)

/-! ## The addresses -/

/-- The result has what the names so far have, once each, in the order of their first places. -/
structure Firsts (names result : List String) : Prop where
  mem : ∀ name, name ∈ result ↔ name ∈ names
  order : result.Pairwise (fun a b => names.idxOf a < names.idxOf b)

theorem Firsts.nodup {names result : List String} (h : Firsts names result) : result.Nodup :=
  h.order.imp (S := fun a b => a ≠ b)
    (fun hlt heq => Nat.ne_of_lt hlt (congrArg (fun name => names.idxOf name) heq))

theorem Firsts.snoc {names result : List String} (h : Firsts names result) (name : String) :
    Firsts (names ++ [name]) (if name ∈ result then result else result ++ [name]) := by
  have hold : ∀ a ∈ result, (names ++ [name]).idxOf a = names.idxOf a :=
    fun a ha => List.idxOf_append_of_mem ((h.mem a).1 ha)
  have hkept : result.Pairwise (fun a b => (names ++ [name]).idxOf a < (names ++ [name]).idxOf b) := by
    refine h.order.imp_of_mem (fun ha hb hlt => ?_)
    rw [hold _ ha, hold _ hb]
    exact hlt
  split_ifs with hmem
  · refine ⟨fun a => ?_, hkept⟩
    rw [List.mem_append, List.mem_singleton, h.mem]
    refine ⟨.inl, fun ha => ha.elim id (fun heq => ?_)⟩
    exact heq ▸ (h.mem name).1 hmem
  · refine ⟨fun a => ?_, List.pairwise_append.2 ⟨hkept, List.pairwise_singleton _ _, ?_⟩⟩
    · rw [List.mem_append, List.mem_append, h.mem]
    · intro a ha b hb
      rw [List.mem_singleton.1 hb, hold a ha,
        List.idxOf_append_of_notMem (fun hn => hmem ((h.mem name).2 hn))]
      exact Nat.lt_of_lt_of_le (List.idxOf_lt_length_iff.2 ((h.mem a).1 ha)) (Nat.le_add_right _ _)

variable {codec : Codec}

theorem collect_ok {values names result out : List String} (h : Firsts names result)
    (hok : collect codec values result = .ok out) :
    ∃ added, List.Forall₂ (fun value name => normalize_forward_email codec value = .ok name) values added ∧
      Firsts (names ++ added) out := by
  induction values generalizing names result with
  | nil =>
    cases hok
    exact ⟨[], .nil, by rwa [List.append_nil]⟩
  | cons value values ih =>
    obtain ⟨name, hname, hok⟩ := Raise.bind_ok.1 hok
    obtain ⟨added, hadded, hfirsts⟩ := ih (h.snoc name) hok
    refine ⟨name :: added, .cons hname hadded, ?_⟩
    rwa [List.append_assoc] at hfirsts

/-- Both domains cover the sender, and the longer one decides, whatever the order. -/
def rules : List Rule :=
  [⟨"wide", "sender_domain", "x.kr", "skip", none, none⟩,
    ⟨"near", "sender_domain", "mail.x.kr", "forward", some true, some ["B@y.kr", "a@y.kr", "b@y.kr"]⟩,
    ⟨"off", "sender_email", "c@mail.x.kr", "skip", some false, none⟩]

open mail_policies (ForwardException ForwardSettings ForwardTarget Match longest exceptionFor
  domain_matches)

/-- A row of the exceptions as the service hands it over. -/
def ruleOf (row : ForwardException) : Rule :=
  { id := row.id
    matcher_type := match row.matcher_type with
      | .email => "sender_email"
      | .domain => "sender_domain"
    matcher_value := row.matcher_value
    action := if row.skip then "skip" else "forward"
    enabled := some row.enabled
    target_emails := some (row.targets.map ForwardTarget.normalized_email) }

theorem longest_eq (rows : List ForwardException) :
    (longest rows).map ruleOf = (rows.map ruleOf).argmax (fun rule => rule.matcher_value.length) := by
  induction rows with
  | nil => rfl
  | cons row rows ih =>
    rw [List.map_cons, List.argmax_cons, ← ih, longest]
    cases longest rows with
    | none => rfl
    | some best =>
      dsimp only [Option.map_some]
      by_cases hle : best.matcher_value.length ≤ row.matcher_value.length
      · rw [if_pos hle]
        exact (if_neg (Nat.not_lt_of_le hle)).symm
      · rw [if_neg hle]
        exact (if_pos (Nat.lt_of_not_le hle)).symm

theorem isExact_ruleOf (sender : String) :
    Rule.isExact sender ∘ ruleOf = fun row : ForwardException =>
      decide (row.matcher_type = .email) && decide (row.matcher_value = sender) := by
  funext row
  rcases row with ⟨_, _ | _, _, _, _, _⟩
  · rfl
  · rfl

theorem isDomain_ruleOf (sender_domain : String) :
    Rule.isDomain sender_domain ∘ ruleOf = fun row : ForwardException =>
      decide (row.matcher_type = .domain) && domain_matches sender_domain row.matcher_value := by
  funext row
  rcases row with ⟨_, _ | _, _, _, _, _⟩
  · rfl
  · rfl

theorem matched_ruleOf (settings : ForwardSettings) (sender : String) :
    matched (settings.exceptions.map ruleOf) sender = (exceptionFor settings sender).map ruleOf := by
  have henabled : (settings.exceptions.map ruleOf).filter Rule.isEnabled =
      (settings.exceptions.filter ForwardException.enabled).map ruleOf := by
    rw [List.filter_map]
    rfl
  unfold matched exceptionFor
  dsimp only
  rw [henabled, List.filter_map, List.filter_map, ← longest_eq, isExact_ruleOf, isDomain_ruleOf,
    ← List.head?_filter]
  cases (settings.exceptions.filter ForwardException.enabled).filter (fun row =>
    decide (row.matcher_type = .email) && decide (row.matcher_value = sender)) with
  | nil => rfl
  | cons row rows => rfl

theorem firsts_snoc (names : List String) (name : String) :
    (names ++ [name]).reverse.dedup.reverse =
      if name ∈ names.reverse.dedup.reverse then names.reverse.dedup.reverse
      else names.reverse.dedup.reverse ++ [name] := by
  rw [List.reverse_append, List.reverse_singleton, List.singleton_append]
  by_cases h : name ∈ names
  · have hmem : name ∈ names.reverse.dedup.reverse :=
      List.mem_reverse.2 (List.mem_dedup.2 (List.mem_reverse.2 h))
    rw [if_pos hmem, List.dedup_cons_of_mem (List.mem_reverse.2 h)]
  · have hmem : name ∉ names.reverse.dedup.reverse :=
      fun hn => h (List.mem_reverse.1 (List.mem_dedup.1 (List.mem_reverse.1 hn)))
    rw [if_neg hmem, List.dedup_cons_of_notMem (fun hn => h (List.mem_reverse.1 hn)),
      List.reverse_cons]

/-- The loop as a map over all the addresses, of which the first of equal ones stay. -/
theorem collect_eq (codec : Codec) (values names : List String) :
    collect codec values names.reverse.dedup.reverse = (do
      let added ← values.mapM (normalize_forward_email codec)
      return (names ++ added).reverse.dedup.reverse) := by
  induction values generalizing names with
  | nil => rw [List.mapM_nil, pure_bind, List.append_nil]; rfl
  | cons value values ih =>
    rw [collect, List.mapM_cons, bind_assoc]
    refine Raise.bind_congr (fun name _ => ?_)
    rw [← firsts_snoc, ih, bind_assoc]
    refine Raise.bind_congr (fun added _ => ?_)
    rw [pure_bind, List.append_assoc]
    rfl

/-- The targets of the rule that the mailbox's settings select. -/
theorem selected_ruleOf (settings : ForwardSettings) (sender : String) :
    selected (settings.targets.map ForwardTarget.normalized_email)
      ((exceptionFor settings sender).map ruleOf) = (match exceptionFor settings sender with
        | none => settings.targets
        | some rule => if rule.skip then [] else rule.targets).map ForwardTarget.normalized_email := by
  cases exceptionFor settings sender with
  | none => rfl
  | some row =>
    rcases row with ⟨_, _, _, _ | _, _, _⟩
    · rfl
    · rfl

/-- What the mail service decides from the rows is what `from_rules` decides from the rules. -/
theorem from_rules_rows (codec : Codec) (settings : ForwardSettings) (sender_email : String) :
    mail_policies.AutoForwardDecision.from_rules codec settings sender_email = (do
      let decision ← AutoForwardDecision.from_rules codec
        (settings.targets.map ForwardTarget.normalized_email) (settings.exceptions.map ruleOf)
        sender_email
      return (decision.targetEmails, decision.exceptionId)) := by
  unfold mail_policies.AutoForwardDecision.from_rules AutoForwardDecision.from_rules
  rw [bind_assoc]
  refine Raise.bind_congr (fun sender _ => ?_)
  have hcollect : ∀ values, collect codec values [] = (do
      let added ← values.mapM (normalize_forward_email codec)
      return added.reverse.dedup.reverse) := fun values => collect_eq codec values []
  dsimp only
  rw [matched_ruleOf, selected_ruleOf, hcollect, List.mapM_map, bind_assoc, bind_assoc]
  refine Raise.bind_congr (fun added _ => ?_)
  rw [pure_bind, pure_bind, Option.map_map]
  rfl

end moaworks.mail_auto_forwarding_service
