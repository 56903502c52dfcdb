-- The calls on the classification rules: what each makes of the list of its owner, and when a new
-- order is accepted.
import MoaWorks.AutoClassificationLaws

namespace moaworks.mail_auto_classification_service

open mail_policies (Codec Condition Context)
open Raise (require require_ok found found_ok bind_ok)

variable {codec : Codec}
variable {db db' : Db} {id rule_id k : String} {row : RuleRow} {owner : Owner} {version : Nat}
  {payload : RulePayload} {ruleIds scan : List String} {l : List (String × Nat)}
  {t : Table String RuleRow} {w : World}

/-! ## Writes of one row -/

theorem no_clash :
    db.rules.select (clash id row) = ∅ ↔ ∀ k r, db.rules.rows k = some r → k ≠ id →
      r.owner = row.owner → r.priority ≠ row.priority ∧ Text.lower r.name ≠ Text.lower row.name := by
  rw [Finset.eq_empty_iff_forall_notMem]
  constructor
  · intro h k r hr hk howner
    have hnot := h k
    rw [Table.mem_select] at hnot
    constructor
    · intro hpriority
      exact hnot ⟨r, hr, by simp [clash, hk, howner, hpriority]⟩
    · intro hname
      exact hnot ⟨r, hr, by simp [clash, hk, howner, hname]⟩
  · intro h k hk
    rw [Table.mem_select] at hk
    obtain ⟨r, hr, hclash⟩ := hk
    simp only [clash, Bool.and_eq_true, Bool.or_eq_true, decide_eq_true_eq] at hclash
    obtain ⟨⟨hne, howner⟩, hsame⟩ := hclash
    obtain ⟨hpriority, hname⟩ := h k r hr hne howner
    exact hsame.elim hpriority hname

theorem write_ok :
    db.write id row = .ok db' ↔ (row.priority ≤ maxInteger ∧ row.version ≤ maxInteger ∧
      db.rules.select (clash id row) = ∅) ∧ db' = { db with rules := db.rules.set id row } := by
  unfold Db.write
  rw [bind_ok]
  constructor
  · rintro ⟨_, hc, h⟩
    cases h
    exact ⟨require_ok.1 hc, rfl⟩
  · rintro ⟨hc, rfl⟩
    exact ⟨(), require_ok.2 hc, rfl⟩

theorem Inv.write (h : Inv db) (hwrite : db.write id row = .ok db') : Inv db' := by
  obtain ⟨⟨hpriority, hversion, hfree⟩, rfl⟩ := write_ok.1 hwrite
  rw [no_clash] at hfree
  refine ⟨fun k r hr => ?_, fun k k' r r' hr hr' howner heq => ?_,
    fun k k' r r' hr hr' howner heq => ?_⟩
  · rw [Table.rows_set] at hr
    split_ifs at hr
    · cases hr
      exact ⟨hpriority, hversion⟩
    · exact h.fits k r hr
  · rw [Table.rows_set] at hr hr'
    split_ifs at hr hr' with hk hk' hk'
    · exact hk.trans hk'.symm
    · cases hr
      exact absurd heq.symm (hfree k' r' hr' hk' howner.symm).1
    · cases hr'
      exact absurd heq (hfree k r hr hk howner).1
    · exact h.priorities k k' r r' hr hr' howner heq
  · rw [Table.rows_set] at hr hr'
    split_ifs at hr hr' with hk hk' hk'
    · exact hk.trans hk'.symm
    · cases hr
      exact absurd heq.symm (hfree k' r' hr' hk' howner.symm).2
    · cases hr'
      exact absurd heq (hfree k r hr hk howner).2
    · exact h.names k k' r r' hr hr' howner heq

/-- The invariant is about the rules alone. -/
theorem Inv.of_rules (h : Inv db) (hrules : db'.rules = db.rules) : Inv db' := by
  refine ⟨?_, ?_, ?_⟩
  · rw [hrules]
    exact h.fits
  · rw [hrules]
    exact h.priorities
  · rw [hrules]
    exact h.names

theorem replace_children_ok {conditions : List Condition} {tag_ids : List String}
    (h : _replace_children rule_id conditions tag_ids db = .ok db') :
    db' = { db with
      conditions := ChildRows.replace db.conditions rule_id conditions
      rule_tags := ChildRows.replace db.rule_tags rule_id tag_ids } := by
  unfold _replace_children at h
  obtain ⟨_, -, h⟩ := bind_ok.1 h
  cases h
  rfl

theorem le_foldr_max {l : List Nat} {n : Nat} (h : n ∈ l) : n ≤ l.foldr max 0 := by
  induction l with
  | nil => cases h
  | cons m l ih =>
    rcases List.mem_cons.1 h with rfl | h
    · exact le_max_left ..
    · exact (ih h).trans (le_max_right ..)

theorem le_maxPriority (h : (id, row) ∈ rulesOf db owner) :
    row.priority ≤ ((rulesOf db owner).map (fun (_, row) => row.priority)).foldr max 0 :=
  le_foldr_max (List.mem_map.2 ⟨(id, row), h, rfl⟩)

/-! ## What a call makes of the lists -/

/-- A call acts on the list of its owner, and on no other. -/
structure Acts (codec : Codec) (call : Call) (db db' : Db) : Prop where
  inv : Inv db'
  mine : stored db' call.owner = call.act codec (stored db call.owner)
  others : ∀ owner, owner ≠ call.owner → stored db' owner = stored db owner

theorem ruleFor_eq {conditions : List Condition}
    (h : _normalized_conditions codec payload.conditions = .ok conditions) :
    ruleFor codec id version payload = ⟨id, payload.name, payload.enabled, version,
      payload.targetFolderId, conditions, payload.tagIds⟩ := by
  unfold ruleFor
  rw [h]

theorem create_rule_ok (h : create_rule codec owner rule_id payload db = .ok db') :
    ∃ conditions row, _normalized_conditions codec payload.conditions = .ok conditions ∧
      row = ⟨owner, payload.name, payload.enabled,
        ((rulesOf db owner).map (fun (_, row) => row.priority)).foldr max 0 + 10, 1,
        payload.targetFolderId⟩ ∧
      (rulesOf db owner).length < MAX_RULES ∧ db.rules.rows rule_id = none ∧
      db.write rule_id row = .ok { db with rules := db.rules.set rule_id row } ∧
      db' = { db with
        rules := db.rules.set rule_id row
        conditions := ChildRows.replace db.conditions rule_id conditions
        rule_tags := ChildRows.replace db.rule_tags rule_id payload.tagIds } := by
  unfold create_rule at h
  obtain ⟨conditions, hconditions, h⟩ := bind_ok.1 h
  obtain ⟨_, -, h⟩ := bind_ok.1 h
  obtain ⟨_, hcount, h⟩ := bind_ok.1 h
  obtain ⟨_, -, h⟩ := bind_ok.1 h
  obtain ⟨_, hfree, h⟩ := bind_ok.1 h
  obtain ⟨db1, hwrite, h⟩ := bind_ok.1 h
  have hdb := (write_ok.1 hwrite).2
  subst hdb
  have hdb' := replace_children_ok h
  subst hdb'
  exact ⟨conditions, _, hconditions, rfl, require_ok.1 hcount, (require_ok.1 hfree).1, hwrite, rfl⟩

theorem create_rule_acts (hinv : Inv db) (h : create_rule codec owner rule_id payload db = .ok db') :
    Acts codec (.create_rule owner rule_id payload) db db' := by
  obtain ⟨conditions, row, hconditions, hrow, -, hfree, hwrite, rfl⟩ := create_rule_ok h
  have hother : ∀ id r, db.rules.rows id = some r → id ≠ rule_id := by
    rintro id r hr rfl
    rw [hfree] at hr
    cases hr
  refine ⟨(hinv.write hwrite).of_rules rfl, ?_, fun o ho => ?_⟩
  · have hrules : rulesOf { db with
        rules := db.rules.set rule_id row
        conditions := ChildRows.replace db.conditions rule_id conditions
        rule_tags := ChildRows.replace db.rule_tags rule_id payload.tagIds } owner =
          rulesOf db owner ++ [(rule_id, row)] := by
      refine rulesOf_eq ?_ fun id r => ?_
      · refine List.pairwise_append.2 ⟨sorted_rulesOf hinv owner, List.pairwise_singleton _ _, ?_⟩
        rintro ⟨id, r⟩ hmem b hb
        rw [List.mem_singleton.1 hb, hrow]
        exact lt_of_le_of_lt (le_maxPriority hmem) (Nat.lt_add_of_pos_right (by decide))
      · rw [List.mem_append, mem_rulesOf, List.mem_singleton, Table.rows_set]
        split_ifs with hid
        · subst hid
          constructor
          · rintro (⟨hr, -⟩ | heq)
            · rw [hfree] at hr
              cases hr
            · cases heq
              exact ⟨rfl, by rw [hrow]⟩
          · rintro ⟨hr, -⟩
            cases hr
            exact .inr rfl
        · constructor
          · rintro (hr | heq)
            · exact hr
            · cases heq
              exact absurd rfl hid
          · exact .inl
    change stored _ owner = stored db owner ++ [ruleFor codec rule_id 1 payload]
    unfold stored
    rw [hrules, List.map_append, ruleFor_eq hconditions]
    refine congrArg₂ _ (List.map_congr_left ?_) ?_
    · rintro ⟨id, r⟩ hmem
      have hne := hother id r (mem_rulesOf.1 hmem).1
      unfold ruleAt
      rw [ChildRows.children_replace_ne _ hne, ChildRows.children_replace_ne _ hne]
    · rw [List.map_singleton]
      unfold ruleAt
      rw [ChildRows.children_replace_self, ChildRows.children_replace_self, hrow]
  · refine stored_congr (fun id r howner => ?_) fun id r hr _ => ?_
    · change (db.rules.set rule_id row).rows id = some r ↔ _
      rw [Table.rows_set]
      split_ifs with hid
      · subst hid
        rw [hfree]
        constructor
        · intro heq
          cases heq
          rw [hrow] at howner
          exact absurd howner.symm ho
        · exact nofun
      · exact Iff.rfl
    · have hne := hother id r hr
      exact ⟨ChildRows.children_replace_ne _ hne _, ChildRows.children_replace_ne _ hne _⟩

theorem update_rule_ok (h : update_rule codec owner rule_id payload version db = .ok db') :
    ∃ conditions row row', _normalized_conditions codec payload.conditions = .ok conditions ∧
      db.rules.rows rule_id = some row ∧ row.owner = owner ∧ row.version = version ∧
      row' = { row with
        name := payload.name
        enabled := payload.enabled
        target_folder_id := payload.targetFolderId
        version := version + 1 } ∧
      db.write rule_id row' = .ok { db with rules := db.rules.set rule_id row' } ∧
      db' = { db with
        rules := db.rules.set rule_id row'
        conditions := ChildRows.replace db.conditions rule_id conditions
        rule_tags := ChildRows.replace db.rule_tags rule_id payload.tagIds } := by
  unfold update_rule at h
  obtain ⟨conditions, hconditions, h⟩ := bind_ok.1 h
  obtain ⟨row, hrow, h⟩ := bind_ok.1 h
  obtain ⟨_, hversion, h⟩ := bind_ok.1 h
  obtain ⟨_, -, h⟩ := bind_ok.1 h
  obtain ⟨_, -, h⟩ := bind_ok.1 h
  obtain ⟨_, -, h⟩ := bind_ok.1 h
  obtain ⟨db1, hwrite, h⟩ := bind_ok.1 h
  obtain ⟨hrow, howner⟩ := Option.filter_eq_some_iff.1 (found_ok.1 hrow)
  obtain rfl := require_ok.1 hversion
  have hdb := (write_ok.1 hwrite).2
  subst hdb
  have hdb' := replace_children_ok h
  subst hdb'
  exact ⟨conditions, row, _, hconditions, hrow, of_decide_eq_true howner, rfl, rfl, hwrite, rfl⟩

theorem update_rule_acts (hinv : Inv db)
    (h : update_rule codec owner rule_id payload version db = .ok db') :
    Acts codec (.update_rule owner rule_id payload version) db db' := by
  obtain ⟨conditions, row, row', hconditions, hrow, howner, -, hrow', hwrite, rfl⟩ := update_rule_ok h
  have howner' : row'.owner = owner := by rw [hrow']; exact howner
  have hpriority : row'.priority = row.priority := by rw [hrow']
  refine ⟨(hinv.write hwrite).of_rules rfl, ?_, fun o ho => ?_⟩
  · have hrules : rulesOf { db with
        rules := db.rules.set rule_id row'
        conditions := ChildRows.replace db.conditions rule_id conditions
        rule_tags := ChildRows.replace db.rule_tags rule_id payload.tagIds } owner =
          (rulesOf db owner).map (fun e => if e.1 = rule_id then (rule_id, row') else e) := by
      have hsame : ∀ e ∈ rulesOf db owner,
          (if e.1 = rule_id then (rule_id, row') else e).2.priority = e.2.priority := by
        rintro ⟨id, r⟩ hmem
        split_ifs with hid
        · obtain rfl : id = rule_id := hid
          have hr := (mem_rulesOf.1 hmem).1
          rw [hrow] at hr
          cases hr
          exact hpriority
        · rfl
      refine rulesOf_eq ?_ fun id r => ?_
      · rw [List.pairwise_map]
        refine (sorted_rulesOf hinv owner).imp_of_mem fun ha hb hlt => ?_
        rw [hsame _ ha, hsame _ hb]
        exact hlt
      · change _ ↔ (db.rules.set rule_id row').rows id = some r ∧ _
        rw [List.mem_map, Table.rows_set]
        constructor
        · rintro ⟨⟨k, r'⟩, hmem, heq⟩
          by_cases hk : k = rule_id
          · rw [if_pos hk] at heq
            cases heq
            exact ⟨if_pos rfl, howner'⟩
          · rw [if_neg hk] at heq
            cases heq
            rw [if_neg hk]
            exact mem_rulesOf.1 hmem
        · rintro ⟨hr, hr'⟩
          split_ifs at hr with hid
          · cases hr
            exact ⟨(rule_id, row), mem_rulesOf.2 ⟨hrow, howner⟩, by rw [if_pos rfl, hid]⟩
          · exact ⟨(id, r), mem_rulesOf.2 ⟨hr, hr'⟩, if_neg hid⟩
    change stored _ owner = (stored db owner).map (fun rule =>
      if rule.id = rule_id then ruleFor codec rule_id (version + 1) payload else rule)
    unfold stored
    rw [hrules, List.map_map, List.map_map, ruleFor_eq hconditions]
    refine List.map_congr_left ?_
    rintro ⟨id, r⟩ -
    rw [Function.comp_apply, Function.comp_apply]
    change ruleAt _ _ = if id = rule_id then _ else _
    by_cases hid : id = rule_id
    · rw [if_pos hid, if_pos hid]
      unfold ruleAt
      rw [ChildRows.children_replace_self, ChildRows.children_replace_self, hrow']
    · rw [if_neg hid, if_neg hid]
      unfold ruleAt
      rw [ChildRows.children_replace_ne _ hid, ChildRows.children_replace_ne _ hid]
  · have hother : ∀ id r, db.rules.rows id = some r → r.owner = o → id ≠ rule_id := by
      rintro id r hr hro rfl
      rw [hrow] at hr
      cases hr
      exact ho (hro.symm.trans howner)
    refine stored_congr (fun id r hro => ?_) fun id r hr hro => ?_
    · change (db.rules.set rule_id row').rows id = some r ↔ _
      rw [Table.rows_set]
      split_ifs with hid
      · subst hid
        constructor
        · intro heq
          cases heq
          exact absurd (hro.symm.trans howner') ho
        · intro hr
          exact absurd rfl (hother id r hr hro)
      · exact Iff.rfl
    · have hne := hother id r hr hro
      exact ⟨ChildRows.children_replace_ne _ hne _, ChildRows.children_replace_ne _ hne _⟩

theorem delete_rules_acts (hinv : Inv db) (h : delete_rules owner ruleIds db = .ok db') :
    Acts codec (.delete_rules owner ruleIds) db db' := by
  unfold delete_rules at h
  obtain ⟨_, howned, h⟩ := bind_ok.1 h
  have howned := require_ok.1 howned
  cases h
  have hrows : ∀ id r, (db.rules.filter (fun id _ => decide (id ∉ ruleIds))).rows id = some r ↔
      db.rules.rows id = some r ∧ id ∉ ruleIds := by
    intro id r
    rw [Table.rows_filter, Option.filter_eq_some_iff]
    exact and_congr_right fun _ => decide_eq_true_iff
  have hchildren : ∀ {ρ : Type} (t : Table (String × Nat) ρ) id, id ∉ ruleIds →
      ChildRows.children (t.filter (fun k _ => decide (k.1 ∉ ruleIds))) id =
        ChildRows.children t id := by
    intro ρ t id hid
    refine ChildRows.children_congr fun n => ?_
    rw [Table.rows_filter]
    cases t.rows (id, n) with
    | none => rfl
    | some r => exact Option.filter_some_pos (decide_eq_true hid)
  refine ⟨⟨fun id r hr => hinv.fits id r ((hrows id r).1 hr).1, fun id id' r r' hr hr' =>
    hinv.priorities id id' r r' ((hrows id r).1 hr).1 ((hrows id' r').1 hr').1,
    fun id id' r r' hr hr' =>
      hinv.names id id' r r' ((hrows id r).1 hr).1 ((hrows id' r').1 hr').1⟩, ?_, fun o ho => ?_⟩
  · change stored _ owner = (stored db owner).filter (fun rule => decide (rule.id ∉ ruleIds))
    have hrules : rulesOf { db with
        rules := db.rules.filter (fun id _ => decide (id ∉ ruleIds))
        conditions := db.conditions.filter (fun k _ => decide (k.1 ∉ ruleIds))
        rule_tags := db.rule_tags.filter (fun k _ => decide (k.1 ∉ ruleIds)) } owner =
          (rulesOf db owner).filter (fun e => decide (e.1 ∉ ruleIds)) := by
      refine rulesOf_eq ((sorted_rulesOf hinv owner).filter _) fun id r => ?_
      rw [List.mem_filter, mem_rulesOf, decide_eq_true_iff]
      change _ ↔ (db.rules.filter _).rows id = some r ∧ _
      rw [hrows]
      constructor
      · rintro ⟨⟨hr, hro⟩, hid⟩
        exact ⟨⟨hr, hid⟩, hro⟩
      · rintro ⟨⟨hr, hid⟩, hro⟩
        exact ⟨⟨hr, hro⟩, hid⟩
    unfold stored
    rw [hrules, List.filter_map]
    refine List.map_congr_left ?_
    rintro ⟨id, r⟩ hmem
    have hid := of_decide_eq_true (List.mem_filter.1 hmem).2
    unfold ruleAt
    rw [hchildren _ id hid, hchildren _ id hid]
  · have hother : ∀ id r, db.rules.rows id = some r → r.owner = o → id ∉ ruleIds := by
      intro id r hr hro hid
      have hmine := howned id hid
      rw [hr, Option.any_some, decide_eq_true_iff] at hmine
      exact ho (hro.symm.trans hmine)
    refine stored_congr (fun id r hro => ?_) fun id r hr hro => ?_
    · change (db.rules.filter _).rows id = some r ↔ _
      rw [hrows]
      exact and_iff_left_of_imp fun hr => hother id r hr hro
    · exact ⟨hchildren _ id (hother id r hr hro), hchildren _ id (hother id r hr hro)⟩

/-! ## A new order -/

/-- The table after the UPDATEs of a list of priorities. -/
def assigned (owner : Owner) (l : List (String × Nat)) (t : Table String RuleRow) :
    Table String RuleRow :=
  l.foldl (fun t e => t.update (fun k row => decide (k = e.1) && decide (row.owner = owner))
    (fun row => { row with priority := e.2 })) t

theorem setPriority_eq {e : String × Nat} (h : setPriority owner db e = .ok db') :
    db' = { db with rules := assigned owner [e] db.rules } ∧
      (∀ row, db.rules.rows e.1 = some row → row.owner = owner → e.2 ≤ maxInteger) ∧
      (Inv db → Inv db') := by
  have hrows : ∀ k, (assigned owner [e] db.rules).rows k = (db.rules.rows k).map (fun row =>
      if decide (k = e.1) && decide (row.owner = owner) then { row with priority := e.2 } else row) :=
    fun k => rfl
  unfold setPriority at h
  cases hrow : (db.rules.rows e.1).filter (fun row => decide (row.owner = owner)) with
  | none =>
    rw [hrow] at h
    cases h
    have hnot : ∀ row, db.rules.rows e.1 = some row → row.owner ≠ owner := by
      intro row hr howner
      simp [hr, howner] at hrow
    have hsame : assigned owner [e] db.rules = db.rules := by
      refine Table.ext_rows fun k => ?_
      rw [hrows]
      cases hr : db.rules.rows k with
      | none => rfl
      | some row =>
        rw [Option.map_some, if_neg]
        intro hsel
        rw [Bool.and_eq_true, decide_eq_true_iff, decide_eq_true_iff] at hsel
        exact hnot row (hsel.1 ▸ hr) hsel.2
    rw [hsame]
    exact ⟨rfl, fun row hr howner => absurd howner (hnot row hr), id⟩
  | some row =>
    rw [hrow] at h
    obtain ⟨hr, howner⟩ := Option.filter_eq_some_iff.1 hrow
    obtain ⟨⟨hfits, -⟩, hdb⟩ := write_ok.1 h
    refine ⟨?_, fun _ _ _ => hfits, fun hinv => hinv.write h⟩
    rw [hdb]
    refine congrArg (fun t => { db with rules := t }) (Table.ext_rows fun k => ?_)
    rw [hrows, Table.rows_set]
    by_cases hk : k = e.1
    · rw [if_pos hk, hk, hr, Option.map_some, if_pos]
      rw [decide_eq_true rfl, Bool.true_and]
      exact howner
    · rw [if_neg hk]
      cases db.rules.rows k <;> simp [hk]

theorem setPriorities_eq (h : l.foldlM (setPriority owner) db = .ok db') :
    db' = { db with rules := assigned owner l db.rules } ∧ (Inv db → Inv db') := by
  induction l generalizing db with
  | nil =>
    cases h
    exact ⟨rfl, id⟩
  | cons e l ih =>
    obtain ⟨db1, hstep, h⟩ := bind_ok.1 h
    obtain ⟨hdb1, -, hinv1⟩ := setPriority_eq hstep
    obtain ⟨hdb', hinv'⟩ := ih h
    refine ⟨?_, fun hinv => hinv' (hinv1 hinv)⟩
    rw [hdb', hdb1]
    rfl

theorem assigned_of_notMem (hk : k ∉ l.map Prod.fst) : (assigned owner l t).rows k = t.rows k := by
  induction l generalizing t with
  | nil => rfl
  | cons e l ih =>
    rw [List.map_cons, List.mem_cons, not_or] at hk
    refine (ih hk.2).trans ?_
    rw [Table.rows_update]
    cases t.rows k <;> simp [hk.1]

theorem assigned_of_mem (hnodup : (l.map Prod.fst).Nodup) {p : Nat} (hk : (k, p) ∈ l)
    (hrow : t.rows k = some row) (howner : row.owner = owner) :
    (assigned owner l t).rows k = some { row with priority := p } := by
  induction l generalizing t row with
  | nil => cases hk
  | cons e l ih =>
    rw [List.map_cons, List.nodup_cons] at hnodup
    rcases List.mem_cons.1 hk with rfl | hk
    · refine (assigned_of_notMem hnodup.1).trans ?_
      rw [Table.rows_update, hrow, Option.map_some, if_pos]
      rw [decide_eq_true rfl, decide_eq_true howner]
      rfl
    · have hne : k ≠ e.1 := by
        rintro rfl
        exact hnodup.1 (List.mem_map.2 ⟨_, hk, rfl⟩)
      refine ih hnodup.2 hk ?_ howner
      rw [Table.rows_update, hrow, Option.map_some, if_neg]
      simp [hne]

/-- Only the rows of the owner are touched. -/
theorem assigned_other (howner : row.owner ≠ owner) :
    (assigned owner l t).rows k = some row ↔ t.rows k = some row := by
  induction l generalizing t with
  | nil => rfl
  | cons e l ih =>
    refine ih.trans ?_
    rw [Table.rows_update, Option.map_eq_some_iff]
    constructor
    · rintro ⟨r, hr, heq⟩
      split_ifs at heq with hsel
      · rw [Bool.and_eq_true, decide_eq_true_iff, decide_eq_true_iff] at hsel
        rw [← heq] at howner
        exact absurd hsel.2 howner
      · rw [← heq]
        exact hr
    · intro hr
      refine ⟨row, hr, if_neg ?_⟩
      simp [howner]

/-- A row keeps all but its priority. -/
theorem assigned_row (owner : Owner) (l : List (String × Nat)) (hrow : t.rows k = some row) :
    ∃ q, (assigned owner l t).rows k = some { row with priority := q } := by
  induction l generalizing t row with
  | nil => exact ⟨row.priority, hrow⟩
  | cons e l ih =>
    by_cases hsel : (decide (k = e.1) && decide (row.owner = owner)) = true
    · have hnext : (t.update (fun k row => decide (k = e.1) && decide (row.owner = owner))
          (fun row => { row with priority := e.2 })).rows k = some { row with priority := e.2 } := by
        rw [Table.rows_update, hrow, Option.map_some, if_pos hsel]
      obtain ⟨q, hq⟩ := ih hnext
      exact ⟨q, hq⟩
    · exact ih (by rw [Table.rows_update, hrow, Option.map_some, if_neg hsel])

theorem row_of_assigned {row' : RuleRow} (h : (assigned owner l t).rows k = some row') :
    ∃ row, t.rows k = some row ∧ row.owner = row'.owner := by
  cases hrow : t.rows k with
  | none =>
    have hnone : (assigned owner l t).rows k = none := by
      clear h
      induction l generalizing t with
      | nil => exact hrow
      | cons e l ih => exact ih (by rw [Table.rows_update, hrow, Option.map_none])
    rw [hnone] at h
    cases h
  | some row =>
    obtain ⟨q, hq⟩ := assigned_row owner l hrow
    rw [hq] at h
    cases h
    exact ⟨row, rfl, rfl⟩

/-- One UPDATE after another goes through, when the new priorities fit, differ from each other and
from those of the other rows. -/
theorem setPriorities_ok (hinv : Inv db) (hnodup : (l.map Prod.fst).Nodup)
    (hfits : ∀ e ∈ l, e.2 ≤ maxInteger) (hnew : l.Pairwise (fun a b => a.2 ≠ b.2))
    (hold : ∀ e ∈ l, ∀ k row, db.rules.rows k = some row → row.owner = owner → k ≠ e.1 →
      row.priority ≠ e.2) : ∃ db', l.foldlM (setPriority owner) db = .ok db' := by
  induction l generalizing db with
  | nil => exact ⟨db, rfl⟩
  | cons e l ih =>
    rw [List.map_cons, List.nodup_cons] at hnodup
    rw [List.pairwise_cons] at hnew
    have hstep : ∃ db1, setPriority owner db e = .ok db1 := by
      unfold setPriority
      cases hrow : (db.rules.rows e.1).filter (fun row => decide (row.owner = owner)) with
      | none => exact ⟨db, rfl⟩
      | some row =>
        obtain ⟨hr, howner⟩ := Option.filter_eq_some_iff.1 hrow
        have howner := of_decide_eq_true howner
        refine ⟨_, write_ok.2 ⟨⟨hfits e List.mem_cons_self, (hinv.fits _ row hr).2, ?_⟩, rfl⟩⟩
        rw [no_clash]
        intro k r hk hne hsame
        refine ⟨hold e List.mem_cons_self k r hk (hsame.trans howner) hne, fun hname => ?_⟩
        exact hne (hinv.names k e.1 r row hk hr hsame hname)
    obtain ⟨db1, hstep⟩ := hstep
    obtain ⟨hdb1, -, hinv1⟩ := setPriority_eq hstep
    obtain ⟨db', h⟩ := ih (hinv1 hinv) hnodup.2 (fun e' he' => hfits e' (List.mem_cons_of_mem _ he'))
      hnew.2 fun e' he' k row hrow howner hne => by
        rw [hdb1] at hrow
        by_cases hk : k = e.1
        · -- the row that has just been written
          subst hk
          obtain ⟨r, hr, heq⟩ := Option.map_eq_some_iff.1 hrow
          split_ifs at heq with hsel
          · rw [← heq]
            exact hnew.1 e' he'
          · rw [← heq] at howner
            simp [howner] at hsel
        · have hr : db.rules.rows k = some row := by
            rw [← hrow]
            exact (assigned_of_notMem (by simpa using hk)).symm
          exact hold e' (List.mem_cons_of_mem _ he') k row hr howner hne
    exact ⟨db', bind_ok.2 ⟨db1, hstep, h⟩⟩

/-- The first UPDATE, row by row in the order of the scan. -/
def raised (db : Db) (owner : Owner) (scan : List String) : List (String × Nat) :=
  scan.filterMap (fun id => (db.rules.rows id).map (fun row =>
    (id, row.priority + temporaryOffset (rulesOf db owner))))

/-- The second, in the order of the request. -/
def placed (ruleIds : List String) : List (String × Nat) :=
  (ruleIds.zipIdx 1).map (fun (id, index) => (id, index * 10))

theorem advancePolicy_ok {enabled : Option Bool} (h : advancePolicy owner enabled db = .ok db') :
    ∃ policies, db' = { db with policies := policies } := by
  unfold advancePolicy at h
  cases hpolicy : db.policies.rows owner with
  | none =>
    rw [hpolicy] at h
    cases h
    exact ⟨_, rfl⟩
  | some policy =>
    rw [hpolicy] at h
    obtain ⟨_, -, h⟩ := bind_ok.1 h
    cases h
    exact ⟨_, rfl⟩

theorem reorder_rules_ok (h : reorder_rules owner scan ruleIds version db = .ok db') :
    ∃ db1 db2, (raised db owner scan).foldlM (setPriority owner) db = .ok db1 ∧
      (placed ruleIds).foldlM (setPriority owner) db1 = .ok db2 ∧
      advancePolicy owner none db2 = .ok db' ∧ currentVersion db owner = version ∧
      (rulesOf db owner).length = ruleIds.length ∧
      ((rulesOf db owner).map Prod.fst).toFinset = ruleIds.toFinset := by
  unfold reorder_rules at h
  obtain ⟨_, hversion, h⟩ := bind_ok.1 h
  obtain ⟨_, hids, h⟩ := bind_ok.1 h
  obtain ⟨db1, hraised, h⟩ := bind_ok.1 h
  obtain ⟨db2, hplaced, h⟩ := bind_ok.1 h
  obtain ⟨hlength, hset⟩ := require_ok.1 hids
  refine ⟨db1, db2, hraised, ?_, h, require_ok.1 hversion, hlength, hset⟩
  unfold placed
  rw [List.foldlM_map]
  exact hplaced

theorem raised_keys (hscan : ∀ id ∈ scan, (db.rules.rows id).isSome) :
    (raised db owner scan).map Prod.fst = scan := by
  unfold raised
  induction scan with
  | nil => rfl
  | cons id scan ih =>
    obtain ⟨row, hrow⟩ := Option.isSome_iff_exists.1 (hscan id List.mem_cons_self)
    rw [List.filterMap_cons_some (by rw [hrow]; rfl), List.map_cons,
      ih (fun id' hid' => hscan id' (List.mem_cons_of_mem _ hid'))]

theorem mem_raised {e : String × Nat} :
    e ∈ raised db owner scan ↔ ∃ row, e.1 ∈ scan ∧ db.rules.rows e.1 = some row ∧
      e.2 = row.priority + temporaryOffset (rulesOf db owner) := by
  unfold raised
  rw [List.mem_filterMap]
  constructor
  · rintro ⟨id, hid, heq⟩
    obtain ⟨row, hrow, rfl⟩ := Option.map_eq_some_iff.1 heq
    exact ⟨row, hid, hrow, rfl⟩
  · rintro ⟨row, hid, hrow, heq⟩
    refine ⟨e.1, hid, ?_⟩
    rw [hrow, Option.map_some, ← heq]

theorem placed_keys (ruleIds : List String) : (placed ruleIds).map Prod.fst = ruleIds := by
  unfold placed
  rw [List.map_map]
  exact List.zipIdx_map_fst ..

theorem mem_placed {e : String × Nat} (h : e ∈ placed ruleIds) :
    10 ≤ e.2 ∧ e.2 ≤ ruleIds.length * 10 := by
  obtain ⟨⟨id, index⟩, hmem, rfl⟩ := List.mem_map.1 h
  obtain ⟨hle, hlt, -⟩ := List.mem_zipIdx hmem
  dsimp only
  omega

theorem placed_distinct (ruleIds : List String) :
    (placed ruleIds).Pairwise (fun a b => a.2 < b.2) := by
  unfold placed
  rw [List.pairwise_map]
  have hindexes : ((ruleIds.zipIdx 1).map Prod.snd).Pairwise (· < ·) := by
    rw [List.zipIdx_map_snd]
    exact List.pairwise_lt_range'
  rw [List.pairwise_map] at hindexes
  exact hindexes.imp fun h => Nat.mul_lt_mul_of_pos_right h (by decide)

/-- Naming all the rules is naming each once. -/
theorem perm_of_reorder (hlength : (rulesOf db owner).length = ruleIds.length)
    (hset : ((rulesOf db owner).map Prod.fst).toFinset = ruleIds.toFinset) :
    ruleIds.Perm ((rulesOf db owner).map Prod.fst) := by
  have hnodup := nodup_rulesOf db owner
  have hcard : ruleIds.toFinset.card = ruleIds.length := by
    rw [← hset, List.toFinset_card_of_nodup hnodup, List.length_map, hlength]
  have hnodup' : ruleIds.Nodup := by
    rw [List.card_toFinset] at hcard
    exact List.dedup_eq_self.1 (List.Sublist.eq_of_length (List.dedup_sublist _) hcard)
  refine (List.perm_ext_iff_of_nodup hnodup' hnodup).2 fun id => ?_
  rw [← List.mem_toFinset, ← hset, List.mem_toFinset]

theorem mem_ids :
    id ∈ (rulesOf db owner).map Prod.fst ↔
      ∃ row, db.rules.rows id = some row ∧ row.owner = owner := by
  rw [List.mem_map]
  constructor
  · rintro ⟨⟨k, row⟩, hmem, rfl⟩
    exact ⟨row, mem_rulesOf.1 hmem⟩
  · rintro ⟨row, hrow⟩
    exact ⟨(id, row), mem_rulesOf.2 hrow, rfl⟩

theorem reorder_rules_acts (hinv : Inv db)
    (h : reorder_rules owner scan ruleIds version db = .ok db') :
    Acts codec (.reorder_rules owner scan ruleIds version) db db' := by
  obtain ⟨db1, db2, hraised, hplaced, hpolicy, -, hlength, hset⟩ := reorder_rules_ok h
  have hperm := perm_of_reorder hlength hset
  have hnodup : ((placed ruleIds).map Prod.fst).Nodup := by
    rw [placed_keys]
    exact (hperm.nodup_iff).2 (nodup_rulesOf db owner)
  obtain ⟨hdb1, hinv1⟩ := setPriorities_eq hraised
  obtain ⟨hdb2, hinv2⟩ := setPriorities_eq hplaced
  obtain ⟨policies, hdb'⟩ := advancePolicy_ok hpolicy
  subst hdb1 hdb2 hdb'
  generalize hl1 : raised db owner scan = l1 at *
  generalize ht : assigned owner (placed ruleIds) (assigned owner l1 db.rules) = t at *
  have hothers : ∀ k row, row.owner ≠ owner → (t.rows k = some row ↔ db.rules.rows k = some row) := by
    intro k row hne
    rw [← ht, assigned_other hne, assigned_other hne]
  -- each rule of the owner is named, and gets its place
  have hnamed : ∀ k p row, (k, p) ∈ placed ruleIds → db.rules.rows k = some row →
      row.owner = owner → t.rows k = some { row with priority := p } := by
    intro k p row hk hrow howner
    obtain ⟨q, hq⟩ := assigned_row owner l1 hrow
    rw [← ht]
    have hlast := assigned_of_mem hnodup hk hq howner
    exact hlast
  have hrules : rulesOf { db with policies := policies, rules := t } owner =
      (placed ruleIds).filterMap (fun e => (db.rules.rows e.1).map (fun row =>
        (e.1, { row with priority := e.2 }))) := by
    refine rulesOf_eq ?_ fun id row' => ?_
    · rw [List.pairwise_filterMap]
      refine (placed_distinct ruleIds).imp fun hlt b hb b' hb' => ?_
      obtain ⟨r, _, rfl⟩ := Option.map_eq_some_iff.1 hb
      obtain ⟨r', _, rfl⟩ := Option.map_eq_some_iff.1 hb'
      exact hlt
    · rw [List.mem_filterMap]
      change _ ↔ t.rows id = some row' ∧ row'.owner = owner
      constructor
      · rintro ⟨⟨k, p⟩, hk, heq⟩
        obtain ⟨row, hrow, heq⟩ := Option.map_eq_some_iff.1 heq
        cases heq
        have hid : k ∈ ruleIds := by
          rw [← placed_keys ruleIds]
          exact List.mem_map.2 ⟨_, hk, rfl⟩
        obtain ⟨r, hr, howner⟩ := mem_ids.1 ((hperm.mem_iff).1 hid)
        rw [hrow] at hr
        cases hr
        exact ⟨hnamed k p row hk hrow howner, howner⟩
      · rintro ⟨hrow', howner'⟩
        rw [← ht] at hrow'
        obtain ⟨row1, hrow1, howner1⟩ := row_of_assigned hrow'
        obtain ⟨row, hrow, howner⟩ := row_of_assigned hrow1
        have howner := (howner.trans howner1).trans howner'
        have hid : id ∈ (placed ruleIds).map Prod.fst := by
          rw [placed_keys]
          exact (hperm.mem_iff).2 (mem_ids.2 ⟨row, hrow, howner⟩)
        obtain ⟨⟨k, p⟩, hk, rfl⟩ := List.mem_map.1 hid
        have hnew := hnamed k p row hk hrow howner
        rw [ht, hnew] at hrow'
        cases hrow'
        exact ⟨(k, p), hk, by rw [hrow]; rfl⟩
  refine ⟨?_, ?_, fun o ho => ?_⟩
  · exact (hinv2 (hinv1 hinv)).of_rules rfl
  · change stored _ owner = ruleIds.filterMap (fun id =>
      (stored db owner).find? (fun rule => decide (rule.id = id)))
    have hfind : ∀ id ∈ ruleIds, (stored db owner).find? (fun rule => decide (rule.id = id)) =
        (db.rules.rows id).map (fun row => ruleAt db (id, row)) := by
      intro id hid
      obtain ⟨row, hrow, howner⟩ := mem_ids.1 ((hperm.mem_iff).1 hid)
      rw [hrow, Option.map_some]
      have hsome : ∃ rule, (stored db owner).find? (fun rule => decide (rule.id = id)) = some rule := by
        rw [← Option.isSome_iff_exists, List.find?_isSome]
        exact ⟨ruleAt db (id, row), List.mem_map.2 ⟨_, mem_rulesOf.2 ⟨hrow, howner⟩, rfl⟩,
          decide_eq_true rfl⟩
      obtain ⟨rule, hrule⟩ := hsome
      have hfound : decide (rule.id = id) = true :=
        List.find?_some (p := fun rule : Rule => decide (rule.id = id)) hrule
      obtain ⟨⟨k, r⟩, hmem, rfl⟩ := List.mem_map.1 (List.mem_of_find?_eq_some hrule)
      obtain rfl : k = id := of_decide_eq_true hfound
      have hr := (mem_rulesOf.1 hmem).1
      rw [hrow] at hr
      cases hr
      exact hrule
    rw [List.filterMap_congr hfind]
    unfold stored
    rw [hrules, List.map_filterMap]
    have hkeys := placed_keys ruleIds
    generalize placed ruleIds = l at hkeys
    subst hkeys
    rw [List.filterMap_map]
    refine List.filterMap_congr fun e _ => ?_
    rw [Function.comp_apply, Option.map_map]
    rfl
  · exact stored_congr (fun id row hro => hothers id row (hro ▸ ho)) fun _ _ _ _ => ⟨rfl, rfl⟩

/-- The numbers that a new order needs: the raised priorities, and the next version of the policy. -/
def OrderFits (db : Db) (owner : Owner) : Prop :=
  (∀ id row, db.rules.rows id = some row → row.owner = owner →
    row.priority + temporaryOffset (rulesOf db owner) ≤ maxInteger) ∧
  ∀ policy, db.policies.rows owner = some policy → policy.version + 1 ≤ maxInteger

theorem advancePolicy_ok_iff {enabled : Option Bool} :
    (∃ db', advancePolicy owner enabled db = .ok db') ↔
      ∀ policy, db.policies.rows owner = some policy → policy.version + 1 ≤ maxInteger := by
  unfold advancePolicy
  cases hpolicy : db.policies.rows owner with
  | none => exact ⟨fun _ => nofun, fun _ => ⟨_, rfl⟩⟩
  | some policy =>
    constructor
    · rintro ⟨db', h⟩ policy' hpolicy'
      cases hpolicy'
      obtain ⟨_, hfits, -⟩ := bind_ok.1 h
      exact require_ok.1 hfits
    · intro h
      exact ⟨_, bind_ok.2 ⟨(), require_ok.2 (h policy rfl), rfl⟩⟩

theorem raised_nodup (hscan : scan.Perm ((rulesOf db owner).map Prod.fst)) :
    ((raised db owner scan).map Prod.fst).Nodup := by
  rw [raised_keys]
  · exact (hscan.nodup_iff).2 (nodup_rulesOf db owner)
  · intro id hid
    obtain ⟨row, hrow, -⟩ := mem_ids.1 ((hscan.mem_iff).1 hid)
    rw [hrow]
    rfl

/-- What the first UPDATE has made of a row. -/
theorem raised_row {db1 : Db} (hscan : scan.Perm ((rulesOf db owner).map Prod.fst))
    (hraised : (raised db owner scan).foldlM (setPriority owner) db = .ok db1)
    (hrow : db.rules.rows id = some row) (howner : row.owner = owner) :
    db1.rules.rows id =
      some { row with priority := row.priority + temporaryOffset (rulesOf db owner) } := by
  rw [(setPriorities_eq hraised).1]
  have hid : id ∈ scan := (hscan.mem_iff).2 (mem_ids.2 ⟨row, hrow, howner⟩)
  exact assigned_of_mem (raised_nodup hscan) (mem_raised.2 ⟨row, hid, hrow, rfl⟩) hrow howner

/-- The first UPDATE goes through in any order of the scan, when the raised priorities fit. -/
theorem raised_ok (hinv : Inv db) (hscan : scan.Perm ((rulesOf db owner).map Prod.fst))
    (hfits : ∀ id row, db.rules.rows id = some row → row.owner = owner →
      row.priority + temporaryOffset (rulesOf db owner) ≤ maxInteger) :
    ∃ db1, (raised db owner scan).foldlM (setPriority owner) db = .ok db1 := by
  have hrow : ∀ id ∈ scan, ∃ row, db.rules.rows id = some row ∧ row.owner = owner :=
    fun id hid => mem_ids.1 ((hscan.mem_iff).1 hid)
  have hnodup := raised_nodup hscan
  have hof : ∀ e ∈ raised db owner scan, ∃ row, db.rules.rows e.1 = some row ∧ row.owner = owner ∧
      e.2 = row.priority + temporaryOffset (rulesOf db owner) := by
    intro e he
    obtain ⟨row, hid, hr, heq⟩ := mem_raised.1 he
    obtain ⟨row', hr', howner⟩ := hrow e.1 hid
    rw [hr] at hr'
    cases hr'
    exact ⟨row, hr, howner, heq⟩
  refine setPriorities_ok hinv hnodup (fun e he => ?_) ?_ fun e he k r hk howner hne => ?_
  · obtain ⟨row, hr, howner, heq⟩ := hof e he
    rw [heq]
    exact hfits e.1 row hr howner
  · rw [List.Nodup, List.pairwise_map] at hnodup
    refine hnodup.imp_of_mem fun ha hb hne heq => hne ?_
    obtain ⟨row, hr, howner, hea⟩ := hof _ ha
    obtain ⟨row', hr', howner', heb⟩ := hof _ hb
    refine hinv.priorities _ _ row row' hr hr' (howner.trans howner'.symm) ?_
    omega
  · obtain ⟨row, hr, hro, heq⟩ := hof e he
    have hle := le_maxPriority (mem_rulesOf.2 ⟨hk, howner⟩)
    have hoffset : ((rulesOf db owner).map (fun (_, row) => row.priority)).foldr max 0 <
        temporaryOffset (rulesOf db owner) := Nat.lt_add_of_pos_right (by omega)
    omega

/-- The second UPDATEs go below what the first has raised. -/
theorem placed_ok {db1 : Db} (hinv : Inv db) (hcount : (rulesOf db owner).length ≤ MAX_RULES)
    (hscan : scan.Perm ((rulesOf db owner).map Prod.fst))
    (hids : ruleIds.Perm ((rulesOf db owner).map Prod.fst))
    (hraised : (raised db owner scan).foldlM (setPriority owner) db = .ok db1) :
    ∃ db2, (placed ruleIds).foldlM (setPriority owner) db1 = .ok db2 := by
  obtain ⟨hdb1, hinv1⟩ := setPriorities_eq hraised
  have hlength : ruleIds.length = (rulesOf db owner).length := by
    rw [hids.length_eq, List.length_map]
  refine setPriorities_ok (hinv1 hinv) ?_ (fun e he => ?_) ((placed_distinct ruleIds).imp
    fun hlt => hlt.ne) fun e he k r hk howner _ => ?_
  · rw [placed_keys]
    exact (hids.nodup_iff).2 (nodup_rulesOf db owner)
  · have hle := (mem_placed he).2
    unfold MAX_RULES at hcount
    unfold maxInteger
    omega
  · -- a row of the owner has been raised above all the places
    have hrow : ∃ row, db.rules.rows k = some row ∧ row.owner = r.owner := by
      rw [hdb1] at hk
      exact row_of_assigned hk
    obtain ⟨row, hr, hro⟩ := hrow
    have hnew := raised_row hscan hraised hr (hro.trans howner)
    rw [hk] at hnew
    cases hnew
    have hle := (mem_placed he).2
    have hoffset : (rulesOf db owner).length * 10 < temporaryOffset (rulesOf db owner) := by
      unfold temporaryOffset
      omega
    dsimp only
    omega

/-- A new order of all the rules, under the current version, is accepted if and only if the numbers
fit. -/
theorem reorder_rules_ok_iff (hinv : Inv db) (hcount : (rulesOf db owner).length ≤ MAX_RULES)
    (hscan : scan.Perm ((rulesOf db owner).map Prod.fst))
    (hids : ruleIds.Perm ((rulesOf db owner).map Prod.fst))
    (hversion : currentVersion db owner = version) :
    (∃ db', reorder_rules owner scan ruleIds version db = .ok db') ↔ OrderFits db owner := by
  constructor
  · rintro ⟨db', h⟩
    obtain ⟨db1, db2, hraised, hplaced, hpolicy, -⟩ := reorder_rules_ok h
    refine ⟨fun id row hrow howner => ?_, ?_⟩
    · have hinv1 : Inv db1 := (setPriorities_eq hraised).2 hinv
      exact (hinv1.fits id _ (raised_row hscan hraised hrow howner)).1
    · have hpolicies : db2.policies = db.policies := by
        rw [(setPriorities_eq hplaced).1, (setPriorities_eq hraised).1]
      rw [← hpolicies]
      exact advancePolicy_ok_iff.1 ⟨db', hpolicy⟩
  · rintro ⟨hfits, hpolicy⟩
    obtain ⟨db1, hraised⟩ := raised_ok hinv hscan hfits
    obtain ⟨db2, hplaced⟩ := placed_ok hinv hcount hscan hids hraised
    have hpolicies : db2.policies = db.policies := by
      rw [(setPriorities_eq hplaced).1, (setPriorities_eq hraised).1]
    rw [← hpolicies] at hpolicy
    obtain ⟨db', hdb'⟩ := advancePolicy_ok_iff.2 hpolicy
    refine ⟨db', bind_ok.2 ⟨(), require_ok.2 hversion, bind_ok.2 ⟨(), require_ok.2 ⟨?_, ?_⟩, ?_⟩⟩⟩
    · rw [hids.length_eq, List.length_map]
    · exact List.toFinset_eq_of_perm _ _ hids.symm
    · refine bind_ok.2 ⟨db1, hraised, bind_ok.2 ⟨db2, ?_, hdb'⟩⟩
      unfold placed at hplaced
      rw [List.foldlM_map] at hplaced
      exact hplaced

/-! ## Runs -/

theorem update_policy_acts {enabled : Bool} (hinv : Inv db)
    (h : update_policy owner enabled version db = .ok db') :
    Acts codec (.update_policy owner enabled version) db db' := by
  unfold update_policy at h
  obtain ⟨_, -, h⟩ := bind_ok.1 h
  obtain ⟨policies, rfl⟩ := advancePolicy_ok h
  exact ⟨hinv.of_rules rfl, rfl, fun _ _ => rfl⟩

theorem perform_acts {call : Call} (hinv : Inv db) (h : call.perform codec db = .ok db') :
    Acts codec call db db' := by
  cases call with
  | create_rule owner rule_id payload => exact create_rule_acts hinv h
  | update_rule owner rule_id payload version => exact update_rule_acts hinv h
  | delete_rules owner ruleIds => exact delete_rules_acts hinv h
  | reorder_rules owner scan ruleIds version => exact reorder_rules_acts hinv h
  | update_policy owner enabled version => exact update_policy_acts hinv h

theorem length_stored (db : Db) (owner : Owner) :
    (stored db owner).length = (rulesOf db owner).length := List.length_map _

/-- No call makes a list longer than the limit. -/
theorem perform_count {call : Call} (hinv : Inv db)
    (hcount : (stored db call.owner).length ≤ MAX_RULES) (h : call.perform codec db = .ok db') :
    (stored db' call.owner).length ≤ MAX_RULES := by
  rw [(perform_acts hinv h).mine]
  cases call with
  | create_rule owner rule_id payload =>
    obtain ⟨_, _, -, -, hlt, -⟩ := create_rule_ok h
    change (stored db owner ++ [_]).length ≤ MAX_RULES
    rw [List.length_append, length_stored]
    exact hlt
  | update_rule owner rule_id payload version =>
    change ((stored db owner).map _).length ≤ MAX_RULES
    rw [List.length_map]
    exact hcount
  | delete_rules owner ruleIds => exact (List.length_filter_le _ _).trans hcount
  | reorder_rules owner scan ruleIds version =>
    obtain ⟨_, _, -, -, -, -, hlength, -⟩ := reorder_rules_ok h
    refine (List.length_filterMap_le _ _).trans ?_
    rw [← hlength, ← length_stored]
    exact hcount
  | update_policy owner enabled version => exact hcount

/-- The tables hold the lists, and none is longer than the limit. -/
structure Agrees (w : World) : Prop where
  inv : Inv w.db
  lists : ∀ owner, stored w.db owner = w.lists owner
  count : ∀ owner, (stored w.db owner).length ≤ MAX_RULES

theorem Agrees.step {w' : World} {e : Event} (h : Agrees w) (hstep : step codec w e = some w') :
    Agrees w' := by
  cases e with
  | targets folders tags =>
    cases hstep
    exact ⟨h.inv.of_rules rfl, h.lists, h.count⟩
  | call call =>
    simp only [mail_auto_classification_service.step] at hstep
    split_ifs at hstep
    cases hperform : call.perform codec w.db with
    | error error =>
      rw [hperform] at hstep
      cases hstep
      exact h
    | ok db =>
      rw [hperform] at hstep
      cases hstep
      have hacts := perform_acts h.inv hperform
      refine ⟨hacts.inv, fun owner => ?_, fun owner => ?_⟩
      · dsimp only
        split_ifs with howner
        · rw [howner, hacts.mine, h.lists]
        · rw [hacts.others owner howner, h.lists]
      · by_cases howner : owner = call.owner
        · rw [howner]
          exact perform_count h.inv (h.count _) hperform
        · rw [hacts.others owner howner]
          exact h.count owner

theorem agrees_of_reachable (h : (machine codec).Reachable w) : Agrees w := by
  refine h.invariant ?_ fun s e s' hs hstep => hs.step hstep
  rintro w ⟨-, hrules, -, -, hlists⟩
  have hnone : ∀ id row, w.db.rules.rows id ≠ some row := by
    intro id row
    rw [hrules]
    exact nofun
  have hempty : ∀ owner, stored w.db owner = [] := by
    intro owner
    have hrows : rulesOf w.db owner = [] := rulesOf_eq List.Pairwise.nil fun id row =>
      ⟨nofun, fun hrow => absurd hrow.1 (hnone id row)⟩
    unfold stored
    rw [hrows]
    rfl
  refine ⟨⟨fun id row hrow => absurd hrow (hnone id row), fun id _ row _ hrow =>
    absurd hrow (hnone id row), fun id _ row _ hrow => absurd hrow (hnone id row)⟩,
    fun owner => ?_, fun owner => ?_⟩
  · rw [hempty, hlists]
  · rw [hempty]
    exact Nat.zero_le _

/-- The names of a list differ, whatever their case. -/
theorem names_differ (hinv : Inv db) (owner : Owner) :
    (stored db owner).Pairwise (fun a b => Text.lower a.name ≠ Text.lower b.name) := by
  unfold stored
  rw [List.pairwise_map]
  have hnodup := nodup_rulesOf db owner
  rw [List.Nodup, List.pairwise_map] at hnodup
  refine hnodup.imp_of_mem fun {a b} ha hb hne heq => hne ?_
  obtain ⟨hrow, howner⟩ := mem_rulesOf.1 ha
  obtain ⟨hrow', howner'⟩ := mem_rulesOf.1 hb
  exact hinv.names a.1 b.1 a.2 b.2 hrow hrow' (howner.trans howner'.symm) heq

theorem ids_stored (db : Db) (owner : Owner) :
    (stored db owner).map Rule.id = (rulesOf db owner).map Prod.fst := by
  unfold stored
  rw [List.map_map]
  rfl

def plainCodec : Codec := ⟨some⟩

def me : Owner := ⟨"co", "u"⟩

/-- A rule that files the messages with attachments. -/
def filing (name : String) : RulePayload := ⟨name, true, [⟨.attachment, .exists_, none⟩], some "f", []⟩

def newDb : Db where
  policies := .empty
  rules := .empty
  conditions := .empty
  rule_tags := .empty
  folders := Table.empty.set "f" me
  tags := .empty

def twoRules : World := ((machine plainCodec).run ⟨newDb, fun _ => []⟩
  [.call (.create_rule me "a" (filing "A")), .call (.create_rule me "b" (filing "B"))]).get
    (by decide)

theorem twoRules_reachable : (machine plainCodec).Reachable twoRules :=
  Machine.reachable_of_run ⟨rfl, rfl, rfl, rfl, fun _ => rfl⟩ (Option.some_get _).symm

theorem filing_conditions (name : String) :
    _normalized_conditions codec (filing name).conditions = .ok (filing name).conditions := rfl

/-- A new rule with a free name is accepted as long as its priority fits. -/
theorem create_filing (codec : Codec) (id : String) (hfree : db.rules.rows id = none)
    (hnames : ∀ k row, db.rules.rows k = some row → Text.lower row.name ≠ Text.lower id)
    (hcount : (rulesOf db me).length < MAX_RULES) (hfolder : db.folders.rows "f" = some me)
    (hfits : ((rulesOf db me).map (fun (_, row) => row.priority)).foldr max 0 + 10 ≤ maxInteger) :
    ∃ db', create_rule codec me id (filing id) db = .ok db' := by
  unfold create_rule
  refine ⟨_, bind_ok.2 ⟨_, filing_conditions id, bind_ok.2 ⟨(), require_ok.2 ?_, bind_ok.2 ⟨(),
    require_ok.2 hcount, bind_ok.2 ⟨(), bind_ok.2 ⟨(), require_ok.2 ?_, require_ok.2 nofun⟩,
    bind_ok.2 ⟨(), require_ok.2 ⟨hfree, ?_⟩, bind_ok.2 ⟨_, write_ok.2 ⟨⟨hfits,
      (by decide : 1 ≤ maxInteger), no_clash.2 ?_⟩, rfl⟩, bind_ok.2 ⟨(), require_ok.2
      ⟨(by decide : 1 ≤ 5), Nat.zero_le _, List.nodup_nil⟩, rfl⟩⟩⟩⟩⟩⟩⟩⟩
  · refine Finset.eq_empty_of_forall_notMem fun k hk => ?_
    rw [Table.mem_select] at hk
    obtain ⟨row, hrow, hsel⟩ := hk
    simp only [Bool.and_eq_true, decide_eq_true_eq] at hsel
    exact hnames k row hrow hsel.1.2
  · intro folder hmem _
    cases hmem
    exact hfolder
  · intro folder hmem
    cases hmem
    rw [hfolder]
    rfl
  · intro k row hrow _ howner
    have hle := le_maxPriority (mem_rulesOf.2 ⟨hrow, howner⟩)
    refine ⟨fun heq => ?_, hnames k row hrow⟩
    rw [heq] at hle
    exact absurd hle (Nat.not_le.2 (Nat.lt_add_of_pos_right (by decide)))

/-- One rule is all there is. -/
structure Lone (db : Db) (id : String) (priority : Nat) : Prop where
  row : ∃ row, db.rules.rows id = some row ∧ row.owner = me ∧ row.name = id ∧ row.priority = priority
  only : ∀ k, k ≠ id → db.rules.rows k = none
  folder : db.folders.rows "f" = some me

theorem Lone.rules {priority : Nat} (h : Lone db id priority) :
    ∃ row, rulesOf db me = [(id, row)] ∧ row.priority = priority := by
  obtain ⟨row, hrow, howner, -, hpriority⟩ := h.row
  refine ⟨row, rulesOf_eq (List.pairwise_singleton ..) fun k r => ?_, hpriority⟩
  rw [List.mem_singleton]
  constructor
  · intro heq
    cases heq
    exact ⟨hrow, howner⟩
  · rintro ⟨hr, -⟩
    by_cases hk : k = id
    · subst hk
      rw [hrow] at hr
      cases hr
      rfl
    · rw [h.only k hk] at hr
      cases hr

theorem reachable_call (h : (machine codec).Reachable w) (call : Call) (hscans : call.scans w.db)
    (hperform : call.perform codec w.db = .ok db) :
    ∃ w', (machine codec).Reachable w' ∧ w'.db = db := by
  refine ⟨⟨db, fun owner => if owner = call.owner then call.act codec (w.lists owner)
    else w.lists owner⟩, .next (a := .call call) h trivial ?_, rfl⟩
  change (if call.scans w.db then _ else _) = _
  rw [if_pos hscans, hperform]

/-- A new rule comes in, and the old one goes. -/
theorem Lone.next (hreach : (machine codec).Reachable w) {new : String} {priority : Nat}
    (h : Lone w.db id priority) (hfits : priority + 10 ≤ maxInteger)
    (hnew : Text.lower id ≠ Text.lower new) :
    ∃ w', (machine codec).Reachable w' ∧ Lone w'.db new (priority + 10) := by
  obtain ⟨row, hrules, hpriority⟩ := h.rules
  obtain ⟨row', hrow, howner, hname, -⟩ := h.row
  have hne : new ≠ id := fun heq => hnew (by rw [heq])
  have hmax : ((rulesOf w.db me).map (fun (_, row) => row.priority)).foldr max 0 = priority := by
    rw [hrules, ← hpriority]
    exact Nat.max_zero _
  obtain ⟨db1, hcreate⟩ := create_filing codec new (h.only new hne) (fun k r hr => by
    by_cases hk : k = id
    · subst hk
      rw [hrow] at hr
      cases hr
      rw [hname]
      exact hnew
    · rw [h.only k hk] at hr
      cases hr) (by rw [hrules]; exact (by decide : 1 < MAX_RULES)) h.folder (by rw [hmax]; exact hfits)
  obtain ⟨conditions, added, -, hadded, -, -, -, hdb1⟩ := create_rule_ok hcreate
  have hrow1 : db1.rules.rows id = some row' := by
    rw [hdb1]
    exact (Table.rows_set_ne _ _ hne.symm).trans hrow
  have hdelete : delete_rules me [id] db1 = .ok { db1 with
      rules := db1.rules.filter (fun k _ => decide (k ∉ [id]))
      conditions := db1.conditions.filter (fun k _ => decide (k.1 ∉ [id]))
      rule_tags := db1.rule_tags.filter (fun k _ => decide (k.1 ∉ [id])) } := by
    refine bind_ok.2 ⟨(), require_ok.2 fun k hk => ?_, rfl⟩
    rw [List.mem_singleton.1 hk, hrow1, Option.any_some]
    exact decide_eq_true howner
  obtain ⟨w1, hreach1, hw1⟩ := reachable_call hreach (.create_rule me new (filing new)) trivial hcreate
  rw [← hw1] at hdelete
  obtain ⟨w2, hreach2, hw2⟩ := reachable_call hreach1 (.delete_rules me [id]) trivial hdelete
  have hrows : ∀ k, w2.db.rules.rows k = if k = new then some added else none := by
    intro k
    rw [hw2, hw1, hdb1]
    change ((w.db.rules.set new added).filter (fun k _ => decide (k ∉ [id]))).rows k = _
    rw [Table.rows_filter, Table.rows_set]
    by_cases hk : k = new
    · rw [if_pos hk, if_pos hk, Option.filter_some_pos]
      simp [hk, hne]
    · rw [if_neg hk, if_neg hk]
      by_cases hid : k = id
      · rw [hid, hrow, Option.filter_some_neg]
        simp
      · rw [h.only k hid, Option.filter_none]
  refine ⟨w2, hreach2, ⟨added, ?_, ?_, ?_, ?_⟩, fun k hk => ?_, ?_⟩
  · rw [hrows, if_pos rfl]
  · rw [hadded]
  · rw [hadded]
    rfl
  · rw [hadded, hmax]
  · rw [hrows, if_neg hk]
  · rw [hw2, hw1, hdb1]
    exact h.folder

/-- Rules that come and go by turns. -/
def ruleId (k : Nat) : String := if k % 2 = 0 then "a" else "b"

theorem ruleId_succ (k : Nat) : Text.lower (ruleId k) ≠ Text.lower (ruleId (k + 1)) := by
  unfold ruleId
  rcases Nat.mod_two_eq_zero_or_one k with hk | hk
  · rw [if_pos hk, if_neg (by omega)]
    decide
  · rw [if_neg (by omega), if_pos (by omega)]
    decide

/-- Each rule that comes takes a higher priority than the one that goes. -/
theorem lone_reachable (codec : Codec) (k : Nat) (hk : 10 * (k + 1) ≤ maxInteger) :
    ∃ w, (machine codec).Reachable w ∧ Lone w.db (ruleId k) (10 * (k + 1)) := by
  induction k with
  | zero =>
    have hstart : (machine codec).Reachable ⟨newDb, fun _ => []⟩ :=
      .start ⟨rfl, rfl, rfl, rfl, fun _ => rfl⟩
    have hrules : rulesOf newDb me = [] := by decide
    obtain ⟨db, hcreate⟩ := create_filing codec "a" rfl
      (fun _ _ hrow => (Option.some_ne_none _ hrow.symm).elim)
      (by rw [hrules]; decide) rfl (by rw [hrules]; decide)
    obtain ⟨conditions, added, -, hadded, -, -, -, hdb⟩ := create_rule_ok hcreate
    obtain ⟨w, hreach, hw⟩ := reachable_call hstart (.create_rule me "a" (filing "a")) trivial hcreate
    refine ⟨w, hreach, ⟨added, ?_, ?_, ?_, ?_⟩, fun k hk => ?_, ?_⟩
    · rw [hw, hdb]
      exact Table.rows_set_self ..
    · rw [hadded]
    · rw [hadded]
      rfl
    · rw [hadded, hrules]
      rfl
    · rw [hw, hdb]
      exact Table.rows_set_ne _ _ hk
    · rw [hw, hdb]
      rfl
  | succ k ih =>
    obtain ⟨w, hreach, hlone⟩ := ih (by omega)
    exact hlone.next hreach (by omega) (ruleId_succ k)

end moaworks.mail_auto_classification_service
