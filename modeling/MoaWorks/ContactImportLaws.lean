-- When an import does what its preview showed, and what it leaves in the address book.
import Mathlib.Data.Bool.AllAny
import MoaWorks.ContactImport
import MoaWorks.Lib.TextLaws

namespace moaworks.contact_import

open Program (exec exec_bind exec_get exec_transaction)
open Raise (require_ok bind_ok)

/-! ## What an import is for -/

section

variable (env : Environment) (user : User)

/-- What the user owns is in his company. -/
structure WellFormed (db : Database) : Prop where
  group_home : ∀ id g, db.contact_groups.rows id = some g → g.owner_user_id = user.userId →
    g.company_id = user.companyId
  contact_home : ∀ id c, db.personal_contacts.rows id = some c → c.owner_user_id = user.userId →
    c.company_id = user.companyId

/-- `row` is the first one of its address, which no active contact of the user has. -/
structure Wanted (db : Database) (rows : List Row) (row : Row) : Prop where
  first : ∃ before after, rows = before ++ row :: after ∧ ∀ r ∈ before, r.email ≠ row.email
  unknown : ∀ id c, db.personal_contacts.rows id = some c → c.owner_user_id = user.userId →
    c.active = true → env.lower c.email ≠ row.email

/-- An active group of the user with this name, but for letter case. -/
def HasGroup (db : Database) (name id : String) : Prop :=
  ∃ g, db.contact_groups.rows id = some g ∧ g.active = true ∧ g.owner_user_id = user.userId ∧
    env.lower g.name = env.lower name

/-- `row` names a group that the user does not have. -/
def NewGroup (db : Database) (row : Row) : Prop :=
  row.groupName ≠ "" ∧ ∀ id, ¬ HasGroup env user db row.groupName id

/-- The contact of a row, in the group of the user that the row names. -/
structure Filed (db : Database) (row : Row) (c : Contact) : Prop where
  same : c = ⟨user.companyId, user.userId, c.group_id, row.name, row.email, row.phone,
    row.companyName, row.memo, true⟩
  ungrouped : row.groupName = "" → c.group_id = none
  grouped : row.groupName ≠ "" → ∃ id, c.group_id = some id ∧ HasGroup env user db row.groupName id

/-- What the import of `rows` makes of the address book. -/
structure Imported (before after : Database) (rows : List Row) : Prop where
  users_kept : after.users = before.users
  groups_kept : ∀ id g, before.contact_groups.rows id = some g → after.contact_groups.rows id = some g
  contacts_kept : ∀ id c, before.personal_contacts.rows id = some c →
    after.personal_contacts.rows id = some c
  contact_of : ∀ id c, after.personal_contacts.rows id = some c →
    before.personal_contacts.rows id = none →
      ∃ row, Wanted env user before rows row ∧ Filed env user after row c
  one_contact : ∀ row, Wanted env user before rows row →
    ∃! id, before.personal_contacts.rows id = none ∧
      ∃ c, after.personal_contacts.rows id = some c ∧ c.email = row.email
  group_of : ∀ id g, after.contact_groups.rows id = some g → before.contact_groups.rows id = none →
    g.company_id = user.companyId ∧ g.owner_user_id = user.userId ∧ g.active = true ∧
      ∃ row, Wanted env user before rows row ∧ NewGroup env user before row ∧ g.name = row.groupName
  one_group : ∀ row, Wanted env user before rows row → NewGroup env user before row →
    ∃! id, before.contact_groups.rows id = none ∧ HasGroup env user after row.groupName id

/-- No two of the wanted rows write a new group in different letter case, and what is written
holds no NUL. -/
structure Plain (db : Database) (rows : List Row) : Prop where
  one_spelling : ∀ r s, Wanted env user db rows r → Wanted env user db rows s →
    NewGroup env user db r → NewGroup env user db s →
      env.lower r.groupName = env.lower s.groupName → r.groupName = s.groupName
  group_storable : ∀ r, Wanted env user db rows r → NewGroup env user db r →
    storable r.groupName = true
  contact_storable : ∀ r, Wanted env user db rows r →
    [r.name, r.email, r.phone, r.companyName, r.memo].all storable = true

/-- What `uuid4` draws is new, and drawn once. -/
structure Fresh (draws : Draws) (db : Database) : Prop where
  group_new : ∀ n, db.contact_groups.rows (draws.group n) = none
  contact_new : ∀ n, db.personal_contacts.rows (draws.contact n) = none
  group_once : Function.Injective draws.group
  contact_once : Function.Injective draws.contact

end

section

variable {env : Environment} {user : User} {db : Database}

/-! ## The plan -/

theorem existingContacts_eq_empty (hwf : WellFormed user db) {email : String} :
    existingContacts env user db email = ∅ ↔
      ∀ id c, db.personal_contacts.rows id = some c → c.owner_user_id = user.userId →
        c.active = true → env.lower c.email ≠ email := by
  unfold existingContacts
  rw [Finset.eq_empty_iff_forall_notMem]
  simp only [Table.mem_select, Bool.and_eq_true, decide_eq_true_eq, not_exists, not_and]
  constructor
  · intro h id c hrow howner hactive
    exact h id c hrow ⟨⟨hwf.contact_home id c hrow howner, howner⟩, hactive⟩
  · rintro h id c hrow ⟨⟨-, howner⟩, hactive⟩
    exact h id c hrow howner hactive

theorem existingGroups_some {name id : String}
    (h : existingGroups env user db (env.lower name) = some id) : HasGroup env user db name id := by
  unfold existingGroups at h
  have hmem := List.mem_of_getLast? h
  rw [List.mem_filter, Option.any_eq_true] at hmem
  obtain ⟨-, g, hrow, hg⟩ := hmem
  simp only [Bool.and_eq_true, decide_eq_true_eq] at hg
  obtain ⟨⟨⟨-, howner⟩, hactive⟩, hname⟩ := hg
  exact ⟨g, hrow, hactive, howner, hname⟩

theorem existingGroups_none (hwf : WellFormed user db) {name : String} :
    existingGroups env user db (env.lower name) = none ↔ ∀ id, ¬ HasGroup env user db name id := by
  constructor
  · rintro h id ⟨g, hrow, hactive, howner, hname⟩
    unfold existingGroups at h
    rw [List.getLast?_eq_none_iff, List.filter_eq_nil_iff] at h
    refine h id (Table.mem_orderedKeys.mpr (by rw [hrow]; rfl)) ?_
    rw [hrow, Option.any_some]
    simp [hwf.group_home id g hrow howner, howner, hactive, hname]
  · intro h
    cases hg : existingGroups env user db (env.lower name) with
    | none => rfl
    | some id => exact absurd (existingGroups_some hg) (h id)

theorem planRows_cons {exists_ : String → Bool} {seen : List String} {r : Row} {rows : List Row} :
    (planRows exists_ seen (r :: rows)).1 =
      if r.email ∈ seen then (planRows exists_ seen rows).1
      else if exists_ r.email then (planRows exists_ (r.email :: seen) rows).1
      else r :: (planRows exists_ (r.email :: seen) rows).1 := by
  rw [planRows]
  split
  · rfl
  · dsimp only
    split
    · rfl
    · rfl

/-- The rows to create: the first of each address that is neither seen nor there. -/
theorem mem_planRows {exists_ : String → Bool} {seen : List String} {rows : List Row} {row : Row} :
    row ∈ (planRows exists_ seen rows).1 ↔
      (∃ before after, rows = before ++ row :: after ∧ ∀ r ∈ before, r.email ≠ row.email) ∧
        row.email ∉ seen ∧ exists_ row.email = false := by
  induction rows generalizing seen with
  | nil => simp [planRows]
  | cons r rows ih =>
    -- the first of `r :: rows` with the address of `row` is `r`, or comes later
    have hsplit : (∃ before after, r :: rows = before ++ row :: after ∧
          ∀ x ∈ before, x.email ≠ row.email) ↔
        r = row ∨ r.email ≠ row.email ∧ ∃ before after, rows = before ++ row :: after ∧
          ∀ x ∈ before, x.email ≠ row.email := by
      constructor
      · rintro ⟨before, after, heq, hbefore⟩
        cases before with
        | nil => exact .inl (List.cons.inj heq).1
        | cons x before =>
          obtain ⟨rfl, rfl⟩ := List.cons.inj heq
          exact .inr ⟨hbefore r List.mem_cons_self, before, after, rfl,
            fun x hx => hbefore x (List.mem_cons_of_mem r hx)⟩
      · rintro (rfl | ⟨hne, before, after, rfl, hbefore⟩)
        · exact ⟨[], rows, rfl, fun x hx => absurd hx List.not_mem_nil⟩
        · refine ⟨r :: before, after, rfl, fun x hx => ?_⟩
          rcases List.mem_cons.mp hx with rfl | hx
          · exact hne
          · exact hbefore x hx
    rw [hsplit, planRows_cons]
    split
    · rename_i hseen
      rw [ih]
      constructor
      · rintro ⟨hfirst, hnew, hunknown⟩
        refine ⟨.inr ⟨fun heq => hnew (heq ▸ hseen), hfirst⟩, hnew, hunknown⟩
      · rintro ⟨rfl | ⟨-, hfirst⟩, hnew, hunknown⟩
        · exact absurd hseen hnew
        · exact ⟨hfirst, hnew, hunknown⟩
    · rename_i hseen
      have hrest : row ∈ (planRows exists_ (r.email :: seen) rows).1 ↔
          (r.email ≠ row.email ∧ ∃ before after, rows = before ++ row :: after ∧
            ∀ x ∈ before, x.email ≠ row.email) ∧ row.email ∉ seen ∧ exists_ row.email = false := by
        rw [ih, List.mem_cons, not_or]
        constructor
        · rintro ⟨hfirst, ⟨hne, hnew⟩, hunknown⟩
          exact ⟨⟨Ne.symm hne, hfirst⟩, hnew, hunknown⟩
        · rintro ⟨⟨hne, hfirst⟩, hnew, hunknown⟩
          exact ⟨hfirst, ⟨Ne.symm hne, hnew⟩, hunknown⟩
      split
      · rename_i hexists
        rw [hrest]
        constructor
        · rintro ⟨hfirst, hrest⟩
          exact ⟨.inr hfirst, hrest⟩
        · rintro ⟨rfl | hfirst, hnew, hunknown⟩
          · rw [hexists] at hunknown
            cases hunknown
          · exact ⟨hfirst, hnew, hunknown⟩
      · rename_i hexists
        rw [List.mem_cons, hrest]
        constructor
        · rintro (rfl | ⟨hfirst, hrest⟩)
          · exact ⟨.inl rfl, hseen, by simpa using hexists⟩
          · exact ⟨.inr hfirst, hrest⟩
        · rintro ⟨rfl | hfirst, hrest⟩
          · exact .inl rfl
          · exact .inr ⟨hfirst, hrest⟩

theorem planRows_emails {exists_ : String → Bool} {seen : List String} {rows : List Row} :
    ((planRows exists_ seen rows).1.map Row.email).Nodup := by
  induction rows generalizing seen with
  | nil => exact List.nodup_nil
  | cons r rows ih =>
    rw [planRows_cons]
    split
    · exact ih
    · split
      · exact ih
      · rw [List.map_cons, List.nodup_cons]
        refine ⟨fun hmem => ?_, ih⟩
        obtain ⟨row, hrow, heq⟩ := List.mem_map.mp hmem
        exact (mem_planRows.mp hrow).2.1 (by rw [heq]; exact List.mem_cons_self)

theorem mem_rowsToCreate (hwf : WellFormed user db) {parsed : Parsed} {row : Row} :
    row ∈ (buildContactImportPlan env user db parsed).rowsToCreate ↔
      Wanted env user db parsed.rows row := by
  change row ∈ (planRows _ [] parsed.rows).1 ↔ _
  rw [mem_planRows]
  simp only [List.not_mem_nil, not_false_eq_true, true_and, decide_eq_false_iff_not, not_not, ne_eq]
  rw [existingContacts_eq_empty hwf]
  exact ⟨fun h => ⟨h.1, h.2⟩, fun h => ⟨h.first, h.unknown⟩⟩

theorem mem_groupsToCreate (hwf : WellFormed user db) {parsed : Parsed} {name : String} :
    name ∈ (buildContactImportPlan env user db parsed).groupsToCreate ↔
      ∃ row, Wanted env user db parsed.rows row ∧ NewGroup env user db row ∧ row.groupName = name := by
  change name ∈ groupsToCreate env user db (buildContactImportPlan env user db parsed).rowsToCreate ↔ _
  unfold groupsToCreate
  simp only [List.mem_insertionSort, List.mem_dedup, List.mem_filter, List.mem_map, Bool.and_eq_true,
    decide_eq_true_eq, Option.isNone_iff_eq_none, existingGroups_none hwf, mem_rowsToCreate hwf]
  constructor
  · rintro ⟨⟨row, hrow, rfl⟩, hne, hnew⟩
    exact ⟨row, hrow, ⟨hne, hnew⟩, rfl⟩
  · rintro ⟨row, hrow, ⟨hne, hnew⟩, rfl⟩
    exact ⟨⟨row, hrow, rfl⟩, hne, hnew⟩

theorem nodup_groupsToCreate {rows : List Row} : (groupsToCreate env user db rows).Nodup := by
  unfold groupsToCreate
  exact (List.perm_insertionSort _ _).nodup_iff.mpr (List.nodup_dedup _)

/-! ## The statements -/

/-- INSERT adds its own row. -/
theorem rows_set_new {ρ : Type} {t : Table String ρ} {k j : String} {r s : ρ} (h : t.rows k = none) :
    (t.set k r).rows j = some s ↔ t.rows j = some s ∨ (j, s) = (k, r) := by
  rw [Table.rows_set, Prod.mk.injEq]
  split
  · rename_i hj
    rw [hj, h]
    simp [eq_comm]
  · rename_i hj
    simp [hj]

variable (user) in
theorem insertGroup_ok {db' : Database} {id : String} {g : Group} {u : Unit}
    (howner : g.owner_user_id = user.userId) :
    exec (insertGroup env id g) db = (.ok u, db') ↔
      storable g.name = true ∧ db.contact_groups.rows id = none ∧
        (∀ j, ¬ HasGroup env user db g.name j) ∧
        db' = { db with contact_groups := db.contact_groups.set id g } := by
  have hselect : db.contact_groups.select (fun _ h => h.active &&
      decide (h.owner_user_id = g.owner_user_id) && decide (env.lower h.name = env.lower g.name)) ≠ ∅ ↔
        ∃ j, HasGroup env user db g.name j := by
    rw [← Finset.nonempty_iff_ne_empty]
    refine exists_congr (fun j => ?_)
    rw [Table.mem_select, howner]
    simp only [Bool.and_eq_true, decide_eq_true_eq, and_assoc]
    rfl
  unfold insertGroup
  rw [exec_bind, exec_get]
  dsimp only
  split
  · rename_i hstorable
    exact ⟨fun h => (by cases h), fun h => absurd h.1 hstorable⟩
  · rename_i hstorable
    split
    · rename_i hid
      refine ⟨fun h => (by cases h), fun h => ?_⟩
      rw [h.2.1] at hid
      cases hid
    · rename_i hid
      have hnone : db.contact_groups.rows id = none := by simpa using hid
      split
      · rename_i hgroup
        obtain ⟨j, hj⟩ := hselect.mp hgroup
        exact ⟨fun h => (by cases h), fun h => absurd hj (h.2.2.1 j)⟩
      · rename_i hgroup
        have hfree : ∀ j, ¬ HasGroup env user db g.name j := fun j hj => hgroup (hselect.mpr ⟨j, hj⟩)
        refine ⟨fun h => ?_, fun h => ?_⟩
        · cases h
          exact ⟨by simpa using hstorable, hnone, hfree, rfl⟩
        · rw [h.2.2.2]
          rfl

/-- No active contact of the user has this address, but for letter case. -/
def FreeEmail (env : Environment) (user : User) (db : Database) (email : String) : Prop :=
  ∀ id c, db.personal_contacts.rows id = some c → c.active = true → c.owner_user_id = user.userId →
    env.lower c.email ≠ env.lower email

variable (user) in
theorem insertContact_ok {db' : Database} {id : String} {c : Contact} {u : Unit}
    (howner : c.owner_user_id = user.userId) :
    exec (insertContact env id c) db = (.ok u, db') ↔
      [c.name, c.email, c.phone, c.company_name, c.memo].all storable = true ∧
        db.personal_contacts.rows id = none ∧ FreeEmail env user db c.email ∧
        db' = { db with personal_contacts := db.personal_contacts.set id c } := by
  have hselect : db.personal_contacts.select (fun _ d => d.active &&
      decide (d.owner_user_id = c.owner_user_id) && decide (env.lower d.email = env.lower c.email)) ≠ ∅ ↔
        ¬ FreeEmail env user db c.email := by
    rw [← Finset.nonempty_iff_ne_empty]
    unfold FreeEmail
    push Not
    refine exists_congr (fun j => ?_)
    rw [Table.mem_select, howner]
    simp only [Bool.and_eq_true, decide_eq_true_eq, and_assoc]
  unfold insertContact
  rw [exec_bind, exec_get]
  dsimp only
  split
  · rename_i hstorable
    exact ⟨fun h => (by cases h), fun h => absurd h.1 hstorable⟩
  · rename_i hstorable
    split
    · rename_i hid
      refine ⟨fun h => (by cases h), fun h => ?_⟩
      rw [h.2.1] at hid
      cases hid
    · rename_i hid
      have hnone : db.personal_contacts.rows id = none := by simpa using hid
      split
      · rename_i hemail
        exact ⟨fun h => (by cases h), fun h => absurd h.2.2.1 (hselect.mp hemail)⟩
      · rename_i hemail
        have hfree : FreeEmail env user db c.email := by
          by_contra hfree
          exact hemail (hselect.mpr hfree)
        refine ⟨fun h => ?_, fun h => ?_⟩
        · cases h
          exact ⟨not_not.mp hstorable, hnone, hfree, rfl⟩
        · rw [h.2.2.2]
          rfl

/-! ## The loops -/

variable (user) in
/-- The groups that the loop writes. -/
def newGroups (draws : Draws) (next_sort : Nat) : List String → Nat → List (String × Group)
  | [], _ => []
  | name :: names, offset =>
    (draws.group offset, groupOf user name (next_sort + offset)) ::
      newGroups draws next_sort names (offset + 1)

variable (env user) in
/-- The contacts that the loop writes. -/
def newContacts (draws : Draws) (group_by_name : String → Option String) :
    List Row → Nat → List (String × Contact)
  | [], _ => []
  | row :: rows, created =>
    (draws.contact created, contactOf env user group_by_name row) ::
      newContacts draws group_by_name rows (created + 1)

section

variable {draws : Draws} {next_sort : Nat} {names : List String} {offset : Nat}
  {groups result : String → Option String} {db' : Database}

theorem mem_newGroups {id : String} {g : Group}
    (h : (id, g) ∈ newGroups user draws next_sort names offset) :
    g.company_id = user.companyId ∧ g.owner_user_id = user.userId ∧ g.active = true ∧
      g.name ∈ names ∧ ∃ n, offset ≤ n ∧ id = draws.group n := by
  induction names generalizing offset with
  | nil => cases h
  | cons name names ih =>
    rcases List.mem_cons.mp h with heq | h
    · cases heq
      exact ⟨rfl, rfl, rfl, List.mem_cons_self, offset, le_rfl, rfl⟩
    · obtain ⟨hcompany, howner, hactive, hname, n, hn, hid⟩ := ih h
      exact ⟨hcompany, howner, hactive, List.mem_cons_of_mem name hname, n, Nat.le_of_succ_le hn, hid⟩

theorem exists_newGroup {name : String} (h : name ∈ names) (offset : Nat) :
    ∃ id g, (id, g) ∈ newGroups user draws next_sort names offset ∧ g.name = name := by
  induction names generalizing offset with
  | nil => cases h
  | cons first names ih =>
    rcases List.mem_cons.mp h with rfl | h
    · exact ⟨_, _, List.mem_cons_self, rfl⟩
    · obtain ⟨id, g, hg, hname⟩ := ih h (offset + 1)
      exact ⟨id, g, List.mem_cons_of_mem _ hg, hname⟩

theorem newGroup_unique {id id' : String} {g g' : Group}
    (hdistinct : names.Pairwise (fun a b => env.lower a ≠ env.lower b))
    (hg : (id, g) ∈ newGroups user draws next_sort names offset)
    (hg' : (id', g') ∈ newGroups user draws next_sort names offset)
    (hname : env.lower g.name = env.lower g'.name) : id = id' := by
  induction names generalizing offset with
  | nil => cases hg
  | cons name names ih =>
    obtain ⟨hfirst, hrest⟩ := List.pairwise_cons.mp hdistinct
    rcases List.mem_cons.mp hg with heq | hg
    · rcases List.mem_cons.mp hg' with heq' | hg'
      · cases heq
        cases heq'
        rfl
      · cases heq
        exact absurd hname (hfirst g'.name (mem_newGroups hg').2.2.2.1)
    · rcases List.mem_cons.mp hg' with heq' | hg'
      · cases heq'
        exact absurd hname.symm (hfirst g.name (mem_newGroups hg).2.2.2.1)
      · exact ih hrest hg hg'

variable (env user) in
/-- What a loop over groups that went through wrote, and what it means for their names. -/
structure GroupsDone (draws : Draws) (next_sort : Nat) (names : List String) (offset : Nat)
    (groups result : String → Option String) (db db' : Database) : Prop where
  stored : ∀ name ∈ names, storable name = true
  free : ∀ name ∈ names, ∀ id, ¬ HasGroup env user db name id
  distinct : names.Pairwise (fun a b => env.lower a ≠ env.lower b)
  users : db'.users = db.users
  contacts : db'.personal_contacts = db.personal_contacts
  rows : ∀ id g, db'.contact_groups.rows id = some g ↔ db.contact_groups.rows id = some g ∨
    (id, g) ∈ newGroups user draws next_sort names offset
  found : ∀ id g, (id, g) ∈ newGroups user draws next_sort names offset →
    result (env.lower g.name) = some id
  kept : ∀ key, (∀ name ∈ names, env.lower name ≠ key) → result key = groups key

theorem insertGroups_ok
    (h : exec (insertGroups env user draws next_sort names offset groups) db = (.ok result, db')) :
    GroupsDone env user draws next_sort names offset groups result db db' := by
  induction names generalizing offset groups db with
  | nil =>
    cases h
    exact ⟨by simp, by simp, .nil, rfl, rfl, by simp [newGroups], by simp [newGroups], fun _ _ => rfl⟩
  | cons name names ih =>
    unfold insertGroups at h
    rw [exec_bind] at h
    split at h
    · rename_i u db₁ hfirst
      obtain ⟨hstored, hnone, hfree, rfl⟩ := (insertGroup_ok user rfl).mp hfirst
      have hdone := ih h
      have hrows : ∀ id g, (db.contact_groups.set (draws.group offset)
          (groupOf user name (next_sort + offset))).rows id = some g ↔
            db.contact_groups.rows id = some g ∨
              (id, g) = (draws.group offset, groupOf user name (next_sort + offset)) :=
        fun id g => rows_set_new hnone
      -- the group just written has its name, so that no later one has it
      have hold : ∀ other id, HasGroup env user db other id →
          HasGroup env user { db with
            contact_groups := db.contact_groups.set (draws.group offset)
              (groupOf user name (next_sort + offset)) } other id := by
        rintro other id ⟨g, hg, hrest⟩
        exact ⟨g, (hrows id g).mpr (.inl hg), hrest⟩
      have hown : ∀ other ∈ names, env.lower name ≠ env.lower other := by
        intro other hother heq
        exact hdone.free other hother (draws.group offset)
          ⟨_, (hrows _ _).mpr (.inr rfl), rfl, rfl, heq⟩
      refine ⟨?_, ?_, List.pairwise_cons.mpr ⟨hown, hdone.distinct⟩, hdone.users, hdone.contacts,
        fun id g => ?_, fun id g hg => ?_, fun key hkey => ?_⟩
      · rw [List.forall_mem_cons]
        exact ⟨hstored, hdone.stored⟩
      · rw [List.forall_mem_cons]
        exact ⟨hfree, fun other hother id hgroup => hdone.free other hother id (hold other id hgroup)⟩
      · rw [hdone.rows, hrows, or_assoc]
        exact Iff.rfl.or List.mem_cons.symm
      · rcases List.mem_cons.mp hg with heq | hg
        · cases heq
          change result (env.lower name) = some (draws.group offset)
          rw [hdone.kept _ (fun other hother heq => hown other hother heq.symm), if_pos rfl]
        · exact hdone.found id g hg
      · rw [hdone.kept key (fun other hother => hkey other (List.mem_cons_of_mem name hother)),
          if_neg (hkey name List.mem_cons_self).symm]
    · cases h

theorem insertGroups_runs (hnew : ∀ n, offset ≤ n → db.contact_groups.rows (draws.group n) = none)
    (honce : Function.Injective draws.group) (hstored : ∀ name ∈ names, storable name = true)
    (hfree : ∀ name ∈ names, ∀ id, ¬ HasGroup env user db name id)
    (hdistinct : names.Pairwise (fun a b => env.lower a ≠ env.lower b)) :
    ∃ result db', exec (insertGroups env user draws next_sort names offset groups) db =
      (.ok result, db') := by
  induction names generalizing offset groups db with
  | nil => exact ⟨groups, db, rfl⟩
  | cons name names ih =>
    obtain ⟨hfirst, hrest⟩ := List.pairwise_cons.mp hdistinct
    have hinsert : exec (insertGroup env (draws.group offset)
        (groupOf user name (next_sort + offset))) db = (.ok (), _) :=
      (insertGroup_ok user rfl).mpr ⟨hstored name List.mem_cons_self, hnew offset le_rfl,
        hfree name List.mem_cons_self, rfl⟩
    unfold insertGroups
    rw [exec_bind, hinsert]
    refine ih (fun n hn => ?_) (fun other hother => hstored other (List.mem_cons_of_mem name hother))
      (fun other hother id hgroup => ?_) hrest
    · have hne : draws.group n ≠ draws.group offset := fun heq => absurd (honce heq) (by omega)
      rw [Table.rows_set_ne _ _ hne]
      exact hnew n (Nat.le_of_succ_le hn)
    · obtain ⟨g, hg, hactive, howner, hlower⟩ := hgroup
      rw [Table.rows_set] at hg
      split at hg
      · cases hg
        exact hfirst other hother hlower
      · exact hfree other (List.mem_cons_of_mem name hother) id ⟨g, hg, hactive, howner, hlower⟩

end

section

variable {draws : Draws} {group_by_name : String → Option String} {rows : List Row} {offset : Nat}
  {db' : Database}

theorem mem_newContacts {id : String} {c : Contact}
    (h : (id, c) ∈ newContacts env user draws group_by_name rows offset) :
    (∃ row ∈ rows, c = contactOf env user group_by_name row) ∧ ∃ n, offset ≤ n ∧ id = draws.contact n := by
  induction rows generalizing offset with
  | nil => cases h
  | cons row rows ih =>
    rcases List.mem_cons.mp h with heq | h
    · cases heq
      exact ⟨⟨row, List.mem_cons_self, rfl⟩, offset, le_rfl, rfl⟩
    · obtain ⟨⟨other, hother, hc⟩, n, hn, hid⟩ := ih h
      exact ⟨⟨other, List.mem_cons_of_mem row hother, hc⟩, n, Nat.le_of_succ_le hn, hid⟩

theorem exists_newContact {row : Row} (h : row ∈ rows) (offset : Nat) :
    ∃ id, (id, contactOf env user group_by_name row) ∈
      newContacts env user draws group_by_name rows offset := by
  induction rows generalizing offset with
  | nil => cases h
  | cons first rows ih =>
    rcases List.mem_cons.mp h with rfl | h
    · exact ⟨_, List.mem_cons_self⟩
    · obtain ⟨id, hid⟩ := ih h (offset + 1)
      exact ⟨id, List.mem_cons_of_mem _ hid⟩

theorem newContact_unique {id id' : String} {c c' : Contact} (hdistinct : (rows.map Row.email).Nodup)
    (hc : (id, c) ∈ newContacts env user draws group_by_name rows offset)
    (hc' : (id', c') ∈ newContacts env user draws group_by_name rows offset)
    (hemail : c.email = c'.email) : id = id' := by
  induction rows generalizing offset with
  | nil => cases hc
  | cons row rows ih =>
    rw [List.map_cons, List.nodup_cons] at hdistinct
    -- the address of the first row is that of no later one
    have hfirst : ∀ id c, (id, c) ∈ newContacts env user draws group_by_name rows (offset + 1) →
        c.email ≠ row.email := by
      intro id c hmem heq
      obtain ⟨⟨other, hother, rfl⟩, -⟩ := mem_newContacts hmem
      exact hdistinct.1 (List.mem_map.mpr ⟨other, hother, heq⟩)
    rcases List.mem_cons.mp hc with heq | hc
    · rcases List.mem_cons.mp hc' with heq' | hc'
      · cases heq
        cases heq'
        rfl
      · cases heq
        exact absurd hemail.symm (hfirst id' c' hc')
    · rcases List.mem_cons.mp hc' with heq' | hc'
      · cases heq'
        exact absurd hemail (hfirst id c hc)
      · exact ih hdistinct.2 hc hc'

theorem newContacts_ids (honce : Function.Injective draws.contact) :
    ((newContacts env user draws group_by_name rows offset).map Prod.fst).Nodup := by
  induction rows generalizing offset with
  | nil => exact List.nodup_nil
  | cons row rows ih =>
    unfold newContacts
    rw [List.map_cons, List.nodup_cons]
    refine ⟨fun hmem => ?_, ih⟩
    obtain ⟨⟨id, c⟩, hc, heq⟩ := List.mem_map.mp hmem
    obtain ⟨-, n, hn, rfl⟩ := mem_newContacts hc
    exact absurd (honce heq) (by omega)

theorem newContacts_length :
    (newContacts env user draws group_by_name rows offset).length = rows.length := by
  induction rows generalizing offset with
  | nil => rfl
  | cons row rows ih => exact congrArg Nat.succ ih

/-- The texts of a row that are written into its contact. -/
def contactTexts (row : Row) : List String := [row.name, row.email, row.phone, row.companyName, row.memo]

variable (env user) in
/-- What a loop over contacts that went through wrote. -/
structure ContactsDone (draws : Draws) (group_by_name : String → Option String) (rows : List Row)
    (offset : Nat) (db db' : Database) : Prop where
  stored : ∀ row ∈ rows, (contactTexts row).all storable = true
  users : db'.users = db.users
  groups : db'.contact_groups = db.contact_groups
  rows : ∀ id c, db'.personal_contacts.rows id = some c ↔ db.personal_contacts.rows id = some c ∨
    (id, c) ∈ newContacts env user draws group_by_name rows offset

theorem insertContacts_ok {n : Nat}
    (h : exec (insertContacts env user draws group_by_name rows offset) db = (.ok n, db')) :
    n = offset + rows.length ∧ ContactsDone env user draws group_by_name rows offset db db' := by
  induction rows generalizing offset db with
  | nil =>
    cases h
    exact ⟨rfl, by simp, rfl, rfl, by simp [newContacts]⟩
  | cons row rows ih =>
    unfold insertContacts at h
    rw [exec_bind] at h
    split at h
    · rename_i u db₁ hfirst
      obtain ⟨hstored, hnone, -, rfl⟩ := (insertContact_ok user rfl).mp hfirst
      obtain ⟨rfl, hdone⟩ := ih h
      refine ⟨by rw [List.length_cons]; omega, ?_, hdone.users, hdone.groups, fun id c => ?_⟩
      · rw [List.forall_mem_cons]
        exact ⟨hstored, hdone.stored⟩
      · rw [hdone.rows, rows_set_new hnone, or_assoc]
        exact Iff.rfl.or List.mem_cons.symm
    · cases h

theorem insertContacts_runs (hnew : ∀ n, offset ≤ n → db.personal_contacts.rows (draws.contact n) = none)
    (honce : Function.Injective draws.contact)
    (hstored : ∀ row ∈ rows, (contactTexts row).all storable = true)
    (hfree : ∀ row ∈ rows, FreeEmail env user db row.email)
    (hlower : ∀ row ∈ rows, env.lower row.email = row.email)
    (hdistinct : (rows.map Row.email).Nodup) :
    ∃ n db', exec (insertContacts env user draws group_by_name rows offset) db = (.ok n, db') := by
  induction rows generalizing offset db with
  | nil => exact ⟨offset, db, rfl⟩
  | cons row rows ih =>
    rw [List.map_cons, List.nodup_cons] at hdistinct
    have hinsert : exec (insertContact env (draws.contact offset)
        (contactOf env user group_by_name row)) db = (.ok (), _) :=
      (insertContact_ok user rfl).mpr ⟨hstored row List.mem_cons_self, hnew offset le_rfl,
        hfree row List.mem_cons_self, rfl⟩
    unfold insertContacts
    rw [exec_bind, hinsert]
    refine ih (fun n hn => ?_) (fun other hother => hstored other (List.mem_cons_of_mem row hother))
      (fun other hother id c hc hactive howner => ?_)
      (fun other hother => hlower other (List.mem_cons_of_mem row hother)) hdistinct.2
    · have hne : draws.contact n ≠ draws.contact offset := fun heq => absurd (honce heq) (by omega)
      rw [Table.rows_set_ne _ _ hne]
      exact hnew n (Nat.le_of_succ_le hn)
    · rw [Table.rows_set] at hc
      split at hc
      · cases hc
        change env.lower row.email ≠ env.lower other.email
        rw [hlower row List.mem_cons_self, hlower other (List.mem_cons_of_mem row hother)]
        exact fun heq => hdistinct.1 (heq ▸ List.mem_map_of_mem hother)
      · exact hfree other (List.mem_cons_of_mem row hother) id c hc hactive howner

end

/-! ## The transaction -/

theorem HasGroup.congr {name other id : String} (h : HasGroup env user db name id)
    (hlower : env.lower name = env.lower other) : HasGroup env user db other id := by
  obtain ⟨g, hg, hactive, howner, hname⟩ := h
  exact ⟨g, hg, hactive, howner, hname.trans hlower⟩

section

variable {draws : Draws} {parsed : Parsed} {next_sort : Nat} {groups : String → Option String}
  {db₁ db' : Database}

theorem imported_of_done (hwf : WellFormed user db) (hfresh : Fresh draws db)
    (hg : GroupsDone env user draws next_sort (buildContactImportPlan env user db parsed).groupsToCreate
      0 (existingGroups env user db) groups db db₁)
    (hc : ContactsDone env user draws groups (buildContactImportPlan env user db parsed).rowsToCreate
      0 db₁ db') : Imported env user db db' parsed.rows := by
  have hcontacts : ∀ id c, db'.personal_contacts.rows id = some c ↔
      db.personal_contacts.rows id = some c ∨ (id, c) ∈ newContacts env user draws groups
        (buildContactImportPlan env user db parsed).rowsToCreate 0 := by
    intro id c
    rw [hc.rows, hg.contacts]
  have hgroups : ∀ id g, db'.contact_groups.rows id = some g ↔
      db.contact_groups.rows id = some g ∨ (id, g) ∈ newGroups user draws next_sort
        (buildContactImportPlan env user db parsed).groupsToCreate 0 := by
    intro id g
    rw [hc.groups, hg.rows]
  have hkept : ∀ name id, HasGroup env user db name id → HasGroup env user db' name id := by
    rintro name id ⟨g, hrow, hrest⟩
    exact ⟨g, (hgroups id g).mpr (.inl hrow), hrest⟩
  have hmade : ∀ id g, (id, g) ∈ newGroups user draws next_sort
      (buildContactImportPlan env user db parsed).groupsToCreate 0 →
        HasGroup env user db' g.name id := by
    intro id g hmem
    obtain ⟨-, howner, hactive, -⟩ := mem_newGroups hmem
    exact ⟨g, (hgroups id g).mpr (.inr hmem), hactive, howner, rfl⟩
  refine ⟨hc.users.trans hg.users, fun id g hrow => (hgroups id g).mpr (.inl hrow),
    fun id c hrow => (hcontacts id c).mpr (.inl hrow), fun id c hrow hold => ?_, fun row hrow => ?_,
    fun id g hrow hold => ?_, fun row hrow hnew => ?_⟩
  · rcases (hcontacts id c).mp hrow with hbefore | hmem
    · rw [hold] at hbefore
      cases hbefore
    · obtain ⟨⟨row, hcreate, rfl⟩, -⟩ := mem_newContacts hmem
      have hwanted := (mem_rowsToCreate hwf).mp hcreate
      refine ⟨row, hwanted, rfl, fun hempty => ?_, fun hne => ?_⟩
      · exact if_neg (not_not.mpr hempty)
      · have hgroup : (contactOf env user groups row).group_id = groups (env.lower row.groupName) :=
          if_pos hne
        rw [hgroup]
        cases hexisting : existingGroups env user db (env.lower row.groupName) with
        | some gid =>
          have hhas := existingGroups_some hexisting
          refine ⟨gid, ?_, hkept _ _ hhas⟩
          rw [hg.kept, hexisting]
          exact fun name hname heq => hg.free name hname gid (hhas.congr heq.symm)
        | none =>
          have hnew : NewGroup env user db row := ⟨hne, (existingGroups_none hwf).mp hexisting⟩
          obtain ⟨gid, g, hmem, hname⟩ := exists_newGroup
            ((mem_groupsToCreate hwf).mpr ⟨row, hwanted, hnew, rfl⟩) 0
          have hfound := hg.found gid g hmem
          have hhas := hmade gid g hmem
          rw [hname] at hfound hhas
          exact ⟨gid, hfound, hhas⟩
  · obtain ⟨id, hid⟩ := exists_newContact ((mem_rowsToCreate hwf).mpr hrow) 0
    obtain ⟨-, n, -, rfl⟩ := mem_newContacts hid
    refine ⟨draws.contact n, ⟨hfresh.contact_new n, _, (hcontacts _ _).mpr (.inr hid), rfl⟩, ?_⟩
    rintro other ⟨hold, c, hrow', hemail⟩
    rcases (hcontacts other c).mp hrow' with hbefore | hmem
    · rw [hold] at hbefore
      cases hbefore
    · exact newContact_unique planRows_emails hmem hid hemail
  · rcases (hgroups id g).mp hrow with hbefore | hmem
    · rw [hold] at hbefore
      cases hbefore
    · obtain ⟨hcompany, howner, hactive, hname, -⟩ := mem_newGroups hmem
      obtain ⟨row, hwanted, hnew, heq⟩ := (mem_groupsToCreate hwf).mp hname
      exact ⟨hcompany, howner, hactive, row, hwanted, hnew, heq.symm⟩
  · obtain ⟨id, g, hmem, hname⟩ := exists_newGroup
      ((mem_groupsToCreate hwf).mpr ⟨row, hrow, hnew, rfl⟩) 0
    obtain ⟨-, -, -, -, n, -, rfl⟩ := mem_newGroups hmem
    refine ⟨draws.group n, ⟨hfresh.group_new n, hname ▸ hmade _ g hmem⟩, ?_⟩
    rintro other ⟨hold, g', hrow', -, -, hlower⟩
    rcases (hgroups other g').mp hrow' with hbefore | hmem'
    · rw [hold] at hbefore
      cases hbefore
    · exact newGroup_unique hg.distinct hmem' hmem (hlower.trans (by rw [hname]))

theorem plain_of_done (hwf : WellFormed user db)
    (hg : GroupsDone env user draws next_sort (buildContactImportPlan env user db parsed).groupsToCreate
      0 (existingGroups env user db) groups db db₁)
    (hc : ContactsDone env user draws groups (buildContactImportPlan env user db parsed).rowsToCreate
      0 db₁ db') : Plain env user db parsed.rows := by
  have hmem : ∀ r, Wanted env user db parsed.rows r → NewGroup env user db r →
      r.groupName ∈ (buildContactImportPlan env user db parsed).groupsToCreate := by
    intro r hwanted hnew
    exact (mem_groupsToCreate hwf).mpr ⟨r, hwanted, hnew, rfl⟩
  refine ⟨fun r s hr hs hnewr hnews hlower => ?_, fun r hr hnew => hg.stored _ (hmem r hr hnew),
    fun r hr => hc.stored r ((mem_rowsToCreate hwf).mpr hr)⟩
  by_contra hne
  have hsymm : Std.Symm (fun a b => env.lower a ≠ env.lower b) := ⟨fun _ _ h => h.symm⟩
  exact hg.distinct.forall (hmem r hr hnewr) (hmem s hs hnews) hne hlower

/-- The contacts that are new are as many as the rows to create. -/
theorem card_new (hfresh : Fresh draws db) {rows : List Row} (hcontacts : db₁.personal_contacts =
    db.personal_contacts) (hc : ContactsDone env user draws groups rows 0 db₁ db') :
    (db'.personal_contacts.keys \ db.personal_contacts.keys).card = rows.length := by
  have hkeys : db'.personal_contacts.keys \ db.personal_contacts.keys =
      ((newContacts env user draws groups rows 0).map Prod.fst).toFinset := by
    ext id
    rw [Finset.mem_sdiff, Table.mem_keys, Table.mem_keys, List.mem_toFinset, List.mem_map]
    constructor
    · rintro ⟨hafter, hbefore⟩
      obtain ⟨c, hrow⟩ := Option.isSome_iff_exists.mp hafter
      rcases (hc.rows id c).mp hrow with hold | hmem
      · rw [hcontacts] at hold
        rw [hold] at hbefore
        exact absurd rfl hbefore
      · exact ⟨(id, c), hmem, rfl⟩
    · rintro ⟨⟨id, c⟩, hmem, rfl⟩
      obtain ⟨-, n, -, heq⟩ := mem_newContacts hmem
      refine ⟨?_, ?_⟩
      · rw [(hc.rows id c).mpr (.inr hmem)]
        rfl
      · change ¬ (db.personal_contacts.rows id).isSome = true
        rw [heq, hfresh.contact_new n]
        exact Bool.false_ne_true
  rw [hkeys, List.toFinset_card_of_nodup (newContacts_ids hfresh.contact_once), List.length_map,
    newContacts_length]

/-- An address of the plan is in lower case. -/
theorem parseRows_lower {headers : List String} {index : Nat} {records : List (List String)} :
    ∀ row ∈ (parseRows env headers index records).1, env.lower row.email = row.email := by
  induction records generalizing index with
  | nil =>
    intro row h
    cases h
  | cons record records ih =>
    intro row h
    unfold parseRows at h
    dsimp only at h
    split at h
    · rcases List.mem_cons.mp h with rfl | h
      · exact env.lower_lower _
      · exact ih row h
    · exact ih row h

theorem parseContactCsv_ok {content : Bytes} (h : parseContactCsv env content = .ok parsed) :
    parsed.digest = env.sha256 content ∧ ∀ row ∈ parsed.rows, env.lower row.email = row.email := by
  have hnone : ∀ row ∈ ([] : List Row), env.lower row.email = row.email :=
    fun row hrow => absurd hrow List.not_mem_nil
  unfold parseContactCsv at h
  dsimp only at h
  split at h
  · cases h
  · split at h
    · cases h
    · split at h
      · cases h
        exact ⟨rfl, hnone⟩
      · split at h
        · cases h
        · split at h
          · cases h
            exact ⟨rfl, hnone⟩
          · cases h
            exact ⟨rfl, parseRows_lower⟩

theorem isDigest_sha256 (content : Bytes) : isDigest (env.sha256 content) = true := by
  unfold isDigest
  rw [Bool.and_eq_true, decide_eq_true_eq, List.all_eq_true]
  refine ⟨env.sha256_length content, fun c hc => ?_⟩
  rw [Bool.or_eq_true, decide_eq_true_eq, decide_eq_true_eq]
  exact env.sha256_digits content c hc

/-- The statements of the transaction, once the owner is locked. -/
theorem exec_applyPlan (hactive : db.users.rows user.userId = some ⟨user.companyId, true⟩) :
    exec (applyPlan env user draws parsed) db = exec (do
      let group_by_name ← insertGroups env user draws (nextSort user db)
        (buildContactImportPlan env user db parsed).groupsToCreate 0 (existingGroups env user db)
      let created ← insertContacts env user draws group_by_name
        (buildContactImportPlan env user db parsed).rowsToCreate 0
      pure ⟨created, (buildContactImportPlan env user db parsed).existingEmailCount +
        (buildContactImportPlan env user db parsed).fileDuplicateCount,
        (buildContactImportPlan env user db parsed).groupsToCreate.length, parsed.digest⟩) db := by
  have hlock : exec (lockContactOwner user) db = (.ok (), db) := by
    unfold lockContactOwner
    rw [exec_bind, exec_get]
    dsimp only
    rw [if_pos hactive]
    rfl
  unfold applyPlan
  rw [exec_bind, hlock]
  dsimp only
  rw [exec_bind, exec_get]

theorem applyPlan_ok {r : Applied} (hwf : WellFormed user db) (hfresh : Fresh draws db)
    (hactive : db.users.rows user.userId = some ⟨user.companyId, true⟩)
    (h : exec (applyPlan env user draws parsed) db = (.ok r, db')) :
    Plain env user db parsed.rows ∧ Imported env user db db' parsed.rows ∧
      r.createdCount = (buildContactImportPlan env user db parsed).rowsToCreate.length ∧
      (db'.personal_contacts.keys \ db.personal_contacts.keys).card =
        (buildContactImportPlan env user db parsed).rowsToCreate.length := by
  rw [exec_applyPlan hactive, exec_bind] at h
  split at h
  · rename_i groups db₁ hgroups
    rw [exec_bind] at h
    split at h
    · rename_i n db₂ hcontacts
      cases h
      have hg := insertGroups_ok hgroups
      obtain ⟨hn, hc⟩ := insertContacts_ok hcontacts
      exact ⟨plain_of_done hwf hg hc, imported_of_done hwf hfresh hg hc, by rw [hn, Nat.zero_add],
        card_new hfresh hg.contacts hc⟩
    · cases h
  · cases h

theorem applyPlan_runs (hwf : WellFormed user db) (hfresh : Fresh draws db)
    (hactive : db.users.rows user.userId = some ⟨user.companyId, true⟩)
    (hlower : ∀ row ∈ parsed.rows, env.lower row.email = row.email)
    (hplain : Plain env user db parsed.rows) :
    ∃ r db', exec (applyPlan env user draws parsed) db = (.ok r, db') := by
  have hnames : ∀ name ∈ (buildContactImportPlan env user db parsed).groupsToCreate,
      ∃ row, Wanted env user db parsed.rows row ∧ NewGroup env user db row ∧ row.groupName = name :=
    fun name hname => (mem_groupsToCreate hwf).mp hname
  have hdistinct : (buildContactImportPlan env user db parsed).groupsToCreate.Pairwise
      (fun a b => env.lower a ≠ env.lower b) := by
    refine List.Pairwise.imp_of_mem (fun {a b} ha hb hne heq => hne ?_) nodup_groupsToCreate
    obtain ⟨r, hr, hnewr, rfl⟩ := hnames a ha
    obtain ⟨s, hs, hnews, rfl⟩ := hnames b hb
    exact hplain.one_spelling r s hr hs hnewr hnews heq
  have hrun : ∃ groups db₁, exec (insertGroups env user draws (nextSort user db)
      (buildContactImportPlan env user db parsed).groupsToCreate 0 (existingGroups env user db)) db =
        (.ok groups, db₁) := by
    refine insertGroups_runs (fun n _ => hfresh.group_new n) hfresh.group_once (fun name hname => ?_)
      (fun name hname => ?_) hdistinct
    · obtain ⟨row, hwanted, hnew, rfl⟩ := hnames name hname
      exact hplain.group_storable row hwanted hnew
    · obtain ⟨row, -, hnew, rfl⟩ := hnames name hname
      exact hnew.2
  obtain ⟨groups, db₁, hgroups⟩ := hrun
  have hg := insertGroups_ok hgroups
  have hrows : ∀ row ∈ (buildContactImportPlan env user db parsed).rowsToCreate,
      Wanted env user db parsed.rows row := fun row hrow => (mem_rowsToCreate hwf).mp hrow
  have hemails : ∀ row ∈ (buildContactImportPlan env user db parsed).rowsToCreate,
      env.lower row.email = row.email := by
    intro row hrow
    obtain ⟨before, after, heq, -⟩ := (hrows row hrow).first
    refine hlower row ?_
    rw [heq]
    exact List.mem_append_right _ List.mem_cons_self
  have hrun : ∃ n db₂, exec (insertContacts env user draws groups
      (buildContactImportPlan env user db parsed).rowsToCreate 0) db₁ = (.ok n, db₂) := by
    refine insertContacts_runs (fun n _ => ?_) hfresh.contact_once
      (fun row hrow => hplain.contact_storable row (hrows row hrow)) (fun row hrow id c => ?_)
      hemails planRows_emails
    · rw [hg.contacts]
      exact hfresh.contact_new n
    · rw [hg.contacts, hemails row hrow]
      exact fun hc hactive' howner => (hrows row hrow).unknown id c hc howner hactive'
  obtain ⟨n, db₂, hcontacts⟩ := hrun
  refine ⟨⟨n, (buildContactImportPlan env user db parsed).existingEmailCount +
    (buildContactImportPlan env user db parsed).fileDuplicateCount,
    (buildContactImportPlan env user db parsed).groupsToCreate.length, parsed.digest⟩, db₂, ?_⟩
  rw [exec_applyPlan hactive, exec_bind, hgroups]
  dsimp only
  rw [exec_bind, hcontacts]
  rfl

end

/-! ## The call -/

variable (env) in
/-- The rows of a file that can be read. -/
def fileRows (content : Bytes) : List Row :=
  match parseContactCsv env content with
  | .ok parsed => parsed.rows
  | .error _ => []

section

variable {draws : Draws} {file_name content_type digest : String} {content : Bytes}

theorem exec_raiseOf {α : Type} (x : Except Error α) : exec (raiseOf x) db = (x, db) := by
  cases x <;> rfl

/-- A call that raises changes nothing. -/
theorem raised_changes_nothing {e : Error} {db' : Database}
    (h : exec (applyContactImport env user draws file_name content_type content digest) db =
      (.error e, db')) : db' = db := by
  unfold applyContactImport at h
  rw [exec_bind, exec_raiseOf] at h
  split at h
  · rename_i u db₁ hvalid
    obtain ⟨-, rfl⟩ := Prod.mk.inj hvalid
    rw [exec_bind, exec_raiseOf] at h
    split at h
    · rename_i parsed db₂ hparsed
      obtain ⟨-, rfl⟩ := Prod.mk.inj hparsed
      split at h
      · cases h
        rfl
      · split at h
        · cases h
          rfl
        · rw [exec_transaction] at h
          split at h
          · cases h
          · cases h
            rfl
    · rename_i e' db₂ hparsed
      obtain ⟨-, rfl⟩ := Prod.mk.inj hparsed
      exact (Prod.mk.inj h).2.symm
  · rename_i e' db₁ hvalid
    obtain ⟨-, rfl⟩ := Prod.mk.inj hvalid
    exact (Prod.mk.inj h).2.symm

theorem exec_applyContactImport {parsed : Parsed}
    (hvalid : validateContactImportFile env file_name content_type content = .ok ())
    (hparsed : parseContactCsv env content = .ok parsed) (herrors : parsed.errors = []) :
    exec (applyContactImport env user draws file_name content_type content parsed.digest) db =
      exec (Program.transaction (applyPlan env user draws parsed)) db := by
  have hdigest : isDigest parsed.digest = true := by
    rw [(parseContactCsv_ok hparsed).1]
    exact isDigest_sha256 content
  unfold applyContactImport
  rw [exec_bind, exec_raiseOf, hvalid]
  dsimp only
  rw [exec_bind, exec_raiseOf, hparsed]
  dsimp only
  rw [if_neg (by simp [hdigest]), if_neg (by simp [herrors])]

/-- A preview that says that the file can be applied. -/
theorem preview_ok {p : Preview}
    (h : previewContactImport env user db file_name content_type content = .ok p)
    (happly : p.canApply = true) :
    ∃ parsed, validateContactImportFile env file_name content_type content = .ok () ∧
      parseContactCsv env content = .ok parsed ∧ parsed.errors = [] ∧ p.digest = parsed.digest ∧
      p.newCount = (buildContactImportPlan env user db parsed).rowsToCreate.length := by
  unfold previewContactImport at h
  rw [bind_ok] at h
  obtain ⟨u, hvalid, h⟩ := h
  rw [bind_ok] at h
  obtain ⟨parsed, hparsed, h⟩ := h
  split at h
  · cases h
    cases happly
  · rename_i herrors
    cases h
    exact ⟨parsed, hvalid, hparsed, not_not.mp herrors, rfl, rfl⟩

/-- The import succeeds as its preview said, and creates what the file wants. -/
def ImportsAsPreviewed (env : Environment) (user : User) (draws : Draws) (db : Database)
    (file_name content_type : String) (content : Bytes) (p : Preview) : Prop :=
  ∃ r db', exec (applyContactImport env user draws file_name content_type content p.digest) db =
      (.ok r, db') ∧
    Imported env user db db' (fileRows env content) ∧ r.createdCount = p.newCount ∧
    (db'.personal_contacts.keys \ db.personal_contacts.keys).card = p.newCount

/-- Contact import does what it previewed, exactly where the file writes each new group in one way
and nothing that the database does not store; and a call that raises changes nothing. -/
theorem import_does_what_it_previewed_iff {p : Preview} (hwf : WellFormed user db)
    (hfresh : Fresh draws db) (hactive : db.users.rows user.userId = some ⟨user.companyId, true⟩)
    (hpreview : previewContactImport env user db file_name content_type content = .ok p)
    (happly : p.canApply = true) :
    (ImportsAsPreviewed env user draws db file_name content_type content p ↔
        Plain env user db (fileRows env content)) ∧
      ∀ name type bytes digest e db', exec (applyContactImport env user draws name type bytes digest)
        db = (.error e, db') → db' = db := by
  obtain ⟨parsed, hvalid, hparsed, herrors, hdigest, hcount⟩ := preview_ok hpreview happly
  have hrows : fileRows env content = parsed.rows := by
    unfold fileRows
    rw [hparsed]
  refine ⟨?_, fun name type bytes digest e db' h => raised_changes_nothing h⟩
  unfold ImportsAsPreviewed
  rw [hrows, hdigest, hcount, exec_applyContactImport hvalid hparsed herrors, exec_transaction]
  constructor
  · rintro ⟨r, db', hrun, -⟩
    split at hrun
    · rename_i r' db₁ hplan
      cases hrun
      exact (applyPlan_ok hwf hfresh hactive hplan).1
    · cases hrun
  · intro hplain
    obtain ⟨r, db', hplan⟩ := applyPlan_runs hwf hfresh hactive (parseContactCsv_ok hparsed).2 hplain
    obtain ⟨-, himported, hcreated, hcard⟩ := applyPlan_ok hwf hfresh hactive hplan
    exact ⟨r, db', by rw [hplan], himported, hcreated, hcard⟩

end

end

/-- A reader for plain ASCII files without quotes; the file has the digest `digest`. -/
def plainEnvironment (digest : String) (hlength : digest.toList.length = 64)
    (hdigits : ∀ c ∈ digest.toList, ('0' ≤ c ∧ c ≤ '9') ∨ ('a' ≤ c ∧ c ≤ 'f')) : Environment where
  sha256 _ := digest
  decode content :=
    if content.all (fun b => b < 128) then
      some (String.ofList (content.map (fun b => Char.ofNat b.toNat)))
    else none
  reader text :=
    (((text.toList.splitOn '\n').filter (fun line => line ≠ [])).map
      (fun line => (line.splitOn ',').map String.ofList), none)
  lower := Text.lower
  sha256_length _ := hlength
  sha256_digits _ := hdigits
  lower_lower s := by
    apply String.toList_inj.1
    rw [Text.lower_toList, Text.lower_toList, List.map_map]
    exact List.map_congr_left (fun c _ => Text.toLower_toLower c)

/-- Ana is alone, with an empty address book. -/
def emptyBook : Database :=
  ⟨Table.empty.set "u1" ⟨"c1", true⟩, Table.empty, Table.empty⟩

def ana : User := ⟨"u1", "c1"⟩

def numbered : Draws :=
  ⟨fun n => String.ofList (List.replicate n 'g'), fun n => String.ofList (List.replicate n 'c')⟩

theorem emptyBook_wellFormed : WellFormed ana emptyBook :=
  ⟨fun _ _ h => (by cases h), fun _ _ h => (by cases h)⟩

theorem numbered_fresh : Fresh numbered emptyBook := by
  have honce : ∀ c : Char, Function.Injective (fun n => String.ofList (List.replicate n c)) := by
    intro c n m heq
    have hlength := congrArg (fun s => s.toList.length) heq
    simpa using hlength
  exact ⟨fun _ => rfl, fun _ => rfl, honce 'g', honce 'c'⟩

/-- One row: Ana writes herself down under Sales. -/
def oneRow : Bytes := "name,email,groupName\nAna,ana@x.kr,Sales\n".toList.map (fun c => c.toNat.toUInt8)

def oneRowEnvironment : Environment :=
  plainEnvironment "9adbdff566931d3b50ed47ea71a5824efb2d9279c3080e4420af825226fe5e54"
    (by decide) (List.all_iff_forall_prop.1 (by decide))

theorem one_row_is_imported :
    ∃ p, previewContactImport oneRowEnvironment ana emptyBook "c.csv" "text/csv" oneRow = .ok p ∧
      p.newCount = 1 ∧
      (ImportsAsPreviewed oneRowEnvironment ana numbered emptyBook "c.csv" "text/csv" oneRow p ↔
        Plain oneRowEnvironment ana emptyBook (fileRows oneRowEnvironment oneRow)) := by
  have hpreview : (previewContactImport oneRowEnvironment ana emptyBook "c.csv" "text/csv"
      oneRow).toOption.map (fun p => (p.newCount, p.canApply)) = some (1, true) := by
    decide +kernel
  cases h : previewContactImport oneRowEnvironment ana emptyBook "c.csv" "text/csv" oneRow with
  | error e =>
    rw [h] at hpreview
    cases hpreview
  | ok p =>
    rw [h] at hpreview
    obtain ⟨hcount, happly⟩ := Prod.mk.inj (Option.some.inj hpreview)
    exact ⟨p, rfl, hcount, (import_does_what_it_previewed_iff emptyBook_wellFormed numbered_fresh rfl h
      happly).1⟩

/-- Two rows whose new groups differ in letter case. -/
def twoSpellings : Bytes :=
  "name,email,groupName\nAna,ana@x.kr,Sales\nBob,bob@x.kr,sales\n".toList.map
    (fun c => c.toNat.toUInt8)

def twoSpellingsEnvironment : Environment :=
  plainEnvironment "5d024f0ebff77711239bb375f25b7b9b5a630621db442d131c6e2882626768bd"
    (by decide) (List.all_iff_forall_prop.1 (by decide))

/-- The preview says that the file can be applied, and the import is refused by the index on the
names of groups. -/
theorem two_spellings_are_refused :
    ∃ p, previewContactImport twoSpellingsEnvironment ana emptyBook "c.csv" "text/csv" twoSpellings =
        .ok p ∧ p.canApply = true ∧
      (exec (applyContactImport twoSpellingsEnvironment ana numbered "c.csv" "text/csv" twoSpellings
        p.digest) emptyBook).1 = .error (.database "uq_contact_groups_owner_name_active") ∧
      ¬ ImportsAsPreviewed twoSpellingsEnvironment ana numbered emptyBook "c.csv" "text/csv"
        twoSpellings p := by
  have hpreview : (previewContactImport twoSpellingsEnvironment ana emptyBook "c.csv" "text/csv"
      twoSpellings).toOption.map (fun p => (p.digest, p.canApply)) =
        some ("5d024f0ebff77711239bb375f25b7b9b5a630621db442d131c6e2882626768bd", true) := by
    decide +kernel
  have hrun : (match (exec (applyContactImport twoSpellingsEnvironment ana numbered "c.csv" "text/csv"
      twoSpellings "5d024f0ebff77711239bb375f25b7b9b5a630621db442d131c6e2882626768bd") emptyBook).1 with
      | .ok _ => none
      | .error e => some e) = some (.database "uq_contact_groups_owner_name_active") := by
    decide +kernel
  cases h : previewContactImport twoSpellingsEnvironment ana emptyBook "c.csv" "text/csv"
      twoSpellings with
  | error e =>
    rw [h] at hpreview
    cases hpreview
  | ok p =>
    rw [h] at hpreview
    obtain ⟨hdigest, happly⟩ := Prod.mk.inj (Option.some.inj hpreview)
    refine ⟨p, rfl, happly, ?_, ?_⟩
    · rw [hdigest]
      revert hrun
      rcases (exec (applyContactImport twoSpellingsEnvironment ana numbered "c.csv" "text/csv"
        twoSpellings _) emptyBook).1 with e | r
      · exact fun hrun => congrArg Except.error (Option.some.inj hrun)
      · exact fun hrun => by cases hrun
    · rintro ⟨r, db', hok, -⟩
      rw [hdigest] at hok
      rw [hok] at hrun
      cases hrun

end moaworks.contact_import
