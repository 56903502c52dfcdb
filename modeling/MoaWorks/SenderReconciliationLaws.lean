-- When a completed reconciliation does what it is for: every desired address can be sent from,
-- what is neither desired nor protected is gone, and doing it again changes nothing.
import Mathlib.Data.List.Dedup
import MoaWorks.SenderReconciliation

namespace moaworks.oci_email_operations

open Program (exec exec_bind exec_get exec_modify Meets)

section

variable (db : Database) (company_id mail_domain : String)

/-- The address of an active provider configuration. -/
def Protected (email : String) : Prop :=
  ∃ row ∈ db.mail_provider_configs, row.company_id = company_id ∧
    (row.provider_type = "oci_email_delivery" ∨ row.provider_type = "oci_smtp") ∧
    row.active = true ∧
    ∃ address, row.from_address = some address ∧ Text.strip address ≠ "" ∧ normalize address = email

/-- The address of an active user, or a protected one, in the mail domain. -/
def Desired (email : String) : Prop :=
  endsWith ("@" ++ normalize mail_domain) email = true ∧
    ((∃ row ∈ db.users, row.company_id = company_id ∧ normalize row.status = "active" ∧
      normalize row.email = email) ∨ Protected db company_id email)

end

/-- The senders of an address, in the order of the listing. -/
def sendersOf (senders : List Sender) (email : String) : List Sender :=
  senders.filter (fun s => normalize s.email = email)

/-- What a reconciliation from `before` to `after` is for. -/
structure Reconciled (usable : String → Bool) (desired protected_ : String → Prop)
    (before after : Listing) (again : Client → Nat → Program World String Counts) : Prop where
  served : ∀ email, desired email →
    (∃ s ∈ before.senders, normalize s.email = email ∧ usable s.status = true) ∨
      ∃ s ∈ after.senders, s ∉ before.senders ∧ normalize s.email = email
  spared : ∀ s ∈ before.senders, desired (normalize s.email) ∨ protected_ (normalize s.email) →
    s ∈ after.senders
  removed : ∀ s ∈ before.senders, ¬ desired (normalize s.email) → ¬ protected_ (normalize s.email) →
    usable s.status = true → s.id ≠ "" → s ∉ after.senders
  settled : ∀ client fuel, (exec (again client fuel) ⟨after, []⟩).2.calls = []

/-- A desired address that is listed has a usable sender; of an address that is neither desired nor
protected, no usable sender with an id stands before the last one, and where the last one has an
id, the one before it has none. -/
structure Regular (usable : String → Bool) (desired protected_ : String → Prop)
    (senders : List Sender) : Prop where
  usable_listed : ∀ email, desired email → ∀ s ∈ senders, normalize s.email = email →
    ∃ t ∈ senders, normalize t.email = email ∧ usable t.status = true
  no_blank : ∀ s ∈ senders, normalize s.email = "" → usable s.status = true → s.id = ""
  last_only : ∀ email, email ≠ "" → ¬ desired email → ¬ protected_ email →
    ∀ earlier last, sendersOf senders email = earlier ++ [last] →
      (∀ s ∈ earlier, usable s.status = true → s.id = "") ∧
        (last.id ≠ "" → ∀ s ∈ earlier.getLast?, s.id = "")

/-! ## Addresses -/

theorem normalize_eq_empty {email : String} : normalize email = "" ↔ Text.strip email = "" := by
  unfold normalize
  rw [← String.toList_inj, Text.lower_toList, ← String.toList_inj]
  exact List.map_eq_nil_iff

theorem normalize_normalize (email : String) : normalize (normalize email) = normalize email := by
  unfold normalize
  exact Text.lower_strip_again email

theorem mem_normalized {emails : List String} {email : String} :
    email ∈ normalized emails ↔ ∃ e ∈ emails, Text.strip e ≠ "" ∧ normalize e = email := by
  unfold normalized
  simp only [List.mem_map, List.mem_filter, decide_eq_true_eq]
  constructor
  · rintro ⟨e, ⟨he, hne⟩, rfl⟩
    exact ⟨e, he, hne, rfl⟩
  · rintro ⟨e, he, hne, rfl⟩
    exact ⟨e, ⟨he, hne⟩, rfl⟩

theorem normalize_of_normalized {emails : List String} {email : String}
    (h : email ∈ normalized emails) : normalize email = email ∧ email ≠ "" := by
  obtain ⟨e, -, hne, rfl⟩ := mem_normalized.mp h
  exact ⟨normalize_normalize e, fun hempty => hne (normalize_eq_empty.mp hempty)⟩

theorem mem_sorted {emails : List String} {email : String} : email ∈ sorted emails ↔ email ∈ emails := by
  unfold sorted
  rw [List.mem_insertionSort, List.mem_dedup]

section

variable {db : Database} {company_id mail_domain email : String}

theorem mem_protectedEmails {address : String} : address ∈ protectedEmails db company_id ↔
    ∃ row ∈ db.mail_provider_configs, row.company_id = company_id ∧
      (row.provider_type = "oci_email_delivery" ∨ row.provider_type = "oci_smtp") ∧
      row.active = true ∧ row.from_address = some address ∧ address ≠ "" := by
  unfold protectedEmails
  simp only [List.mem_filterMap, List.mem_filter, Bool.and_eq_true, Bool.or_eq_true,
    decide_eq_true_eq, Option.filter_eq_some_iff]
  constructor
  · rintro ⟨row, ⟨hrow, ⟨hcompany, htype⟩, hactive⟩, haddress, hne⟩
    exact ⟨row, hrow, hcompany, htype, hactive, haddress, hne⟩
  · rintro ⟨row, hrow, hcompany, htype, hactive, haddress, hne⟩
    exact ⟨row, ⟨hrow, ⟨hcompany, htype⟩, hactive⟩, haddress, hne⟩

theorem mem_protected : email ∈ normalized (protectedEmails db company_id) ↔
    Protected db company_id email := by
  unfold Protected
  rw [mem_normalized]
  constructor
  · rintro ⟨address, haddress, hne, rfl⟩
    obtain ⟨row, hrow, hcompany, htype, hactive, hfrom, -⟩ := mem_protectedEmails.mp haddress
    exact ⟨row, hrow, hcompany, htype, hactive, address, hfrom, hne, rfl⟩
  · rintro ⟨row, hrow, hcompany, htype, hactive, address, hfrom, hne, rfl⟩
    refine ⟨address, mem_protectedEmails.mpr ⟨row, hrow, hcompany, htype, hactive, hfrom, ?_⟩,
      hne, rfl⟩
    rintro rfl
    exact hne (by decide)

/-- What ends with the mail domain is not blank. -/
theorem ne_empty_of_endsWith (h : endsWith ("@" ++ normalize mail_domain) email = true) :
    email ≠ "" := by
  rintro rfl
  have hsuffix := List.isSuffixOf_iff_suffix.mp h
  have hnil : ("@" ++ normalize mail_domain).toList = [] := List.suffix_nil.mp hsuffix
  rw [String.toList_append] at hnil
  exact List.cons_ne_nil _ _ hnil

theorem mem_desired : email ∈ normalized (desiredEmails db company_id mail_domain) ↔
    Desired db company_id mail_domain email := by
  have hmem : ∀ e, e ∈ desiredEmails db company_id mail_domain ↔
      Desired db company_id mail_domain e := by
    intro e
    unfold desiredEmails buildDesiredSenderEmails Desired
    simp only [List.mem_append, List.mem_map, List.mem_filter, Bool.and_eq_true, decide_eq_true_eq]
    constructor
    · rintro (⟨address, ⟨haddress, hne, hends⟩, rfl⟩ | ⟨row, ⟨⟨hrow, hcompany⟩, hstatus, hends⟩, rfl⟩)
      · exact ⟨hends, .inr (mem_protected.mp (mem_normalized.mpr ⟨address, haddress, hne, rfl⟩))⟩
      · exact ⟨hends, .inl ⟨row, hrow, hcompany, hstatus, rfl⟩⟩
    · rintro ⟨hends, ⟨row, hrow, hcompany, hstatus, rfl⟩ | hprotected⟩
      · exact .inr ⟨row, ⟨⟨hrow, hcompany⟩, hstatus, hends⟩, rfl⟩
      · obtain ⟨address, haddress, hne, rfl⟩ := mem_normalized.mp (mem_protected.mpr hprotected)
        exact .inl ⟨address, ⟨haddress, hne, hends⟩, rfl⟩
  rw [mem_normalized]
  constructor
  · rintro ⟨e, he, -, rfl⟩
    have hdesired := (hmem e).mp he
    have hnormal : normalize e = e := by
      obtain ⟨-, ⟨row, -, -, -, rfl⟩ | ⟨row, -, -, -, -, address, -, -, rfl⟩⟩ := hdesired
      · exact normalize_normalize row.email
      · exact normalize_normalize address
    rwa [hnormal]
  · intro hdesired
    have hnormal : normalize email = email := by
      obtain ⟨-, ⟨row, -, -, -, rfl⟩ | ⟨row, -, -, -, -, address, -, -, rfl⟩⟩ := hdesired
      · exact normalize_normalize row.email
      · exact normalize_normalize address
    refine ⟨email, (hmem email).mpr hdesired, fun hempty => ?_, hnormal⟩
    exact ne_empty_of_endsWith hdesired.1 (hnormal.symm.trans (normalize_eq_empty.mpr hempty))

end

/-! ## The listing -/

section

variable {senders : List Sender} {email : String} {s : Sender}

theorem existing_eq (hne : email ≠ "") : existing senders email = (sendersOf senders email).getLast? := by
  have hcongr : ∀ s ∈ senders, (decide (Text.strip s.email ≠ "") && decide (normalize s.email = email)) =
      decide (normalize s.email = email) := by
    intro s _
    rw [Bool.and_eq_right_iff_imp, decide_eq_true_eq, decide_eq_true_eq]
    exact fun h hempty => hne (h.symm.trans (normalize_eq_empty.mpr hempty))
  unfold existing sendersOf
  rw [List.filter_congr hcongr]

theorem existing_empty : existing senders "" = none := by
  unfold existing
  rw [List.getLast?_eq_none_iff, List.filter_eq_nil_iff]
  intro s _
  simp only [Bool.and_eq_true, decide_eq_true_eq, not_and]
  exact fun hstrip hempty => hstrip (normalize_eq_empty.mp hempty)

theorem mem_of_existing (h : existing senders email = some s) :
    s ∈ senders ∧ normalize s.email = email ∧ email ≠ "" := by
  have hne : email ≠ "" := by
    rintro rfl
    rw [existing_empty] at h
    cases h
  rw [existing_eq hne] at h
  have hmem := List.mem_of_getLast? h
  unfold sendersOf at hmem
  rw [List.mem_filter, decide_eq_true_eq] at hmem
  exact ⟨hmem.1, hmem.2, hne⟩

theorem mem_existingEmails : email ∈ existingEmails senders ↔
    ∃ s ∈ senders, normalize s.email = email ∧ email ≠ "" := by
  unfold existingEmails
  simp only [List.mem_map, List.mem_filter, decide_eq_true_eq]
  constructor
  · rintro ⟨s, ⟨hs, hstrip⟩, rfl⟩
    exact ⟨s, hs, rfl, fun hempty => hstrip (normalize_eq_empty.mp hempty)⟩
  · rintro ⟨s, hs, rfl, hne⟩
    exact ⟨s, ⟨hs, fun hempty => hne (normalize_eq_empty.mpr hempty)⟩, rfl⟩

theorem mem_existingItems : (email, s) ∈ existingItems senders ↔ existing senders email = some s := by
  unfold existingItems
  rw [List.mem_filterMap]
  constructor
  · rintro ⟨e, -, he⟩
    obtain ⟨t, ht, heq⟩ := Option.map_eq_some_iff.mp he
    obtain ⟨rfl, rfl⟩ := Prod.mk.inj heq
    exact ht
  · intro h
    obtain ⟨hs, hnormal, hne⟩ := mem_of_existing h
    exact ⟨email, mem_sorted.mpr (mem_existingEmails.mpr ⟨s, hs, hnormal, hne⟩), by
      rw [h, Option.map_some]⟩

end

/-! ## Calls -/

section

variable {client : Client} {w w' : World}

theorem allPages_ok {senders all : List Sender} {start : Option String → Nat}
    (hstart : ∀ page items header, client.list_senders senders page = .ok (items, header) →
      senders.drop (start page) = items ++
        match nextPage header with
        | none => []
        | some token => senders.drop (start (some token)))
    {fuel : Nat} {page : Option String} {items : List Sender}
    (h : allPages client senders fuel page items = .ok all) :
    all = items ++ senders.drop (start page) := by
  induction fuel generalizing page items with
  | zero => cases h
  | succ fuel ih =>
    unfold allPages at h
    split at h
    · cases h
    · rename_i more header hpage
      have hmore := hstart page more header hpage
      split at h
      · rename_i hnext
        rw [hnext] at hmore
        cases h
        rw [hmore, List.append_nil]
      · rename_i token hnext
        rw [hnext] at hmore
        rw [hmore, ih h, List.append_assoc]

/-- The snapshot shows the listing, and leaves everything as it is. -/
theorem snapshot_cases (client : Client) (fuel : Nat) (w : World) :
    exec (snapshot client fuel) w = (.ok w.listing.senders, w) ∨
      ∃ e, exec (snapshot client fuel) w = (.error e, w) := by
  obtain ⟨start, hzero, hstart⟩ := client.pages_meet w.listing.senders
  unfold snapshot
  rw [exec_bind, exec_get]
  dsimp only
  split
  · exact .inr ⟨_, rfl⟩
  · split
    · exact .inr ⟨_, rfl⟩
    · rename_i senders hall
      have hsenders := allPages_ok hstart hall
      rw [hzero, List.drop_zero, List.nil_append] at hsenders
      rw [hsenders]
      exact .inl rfl

/-- `s` is a sender that the provider made for `email`, beside `senders`. -/
def Made (senders : List Sender) (email : String) (s : Sender) : Prop :=
  s.email = normalize email ∧ s.id ≠ "" ∧ ∀ t ∈ senders, t.id ≠ s.id

theorem createSender_ok {email : String} {u : Unit}
    (h : exec (createSender client email) w = (.ok u, w')) :
    ∃ s, Made w.listing.senders email s ∧ w'.listing.senders = w.listing.senders ++ [s] := by
  unfold createSender at h
  dsimp only at h
  split at h
  · cases h
  · rw [exec_bind, exec_get] at h
    dsimp only at h
    rw [exec_bind, exec_modify] at h
    dsimp only at h
    split at h
    · cases h
    · rename_i s hs
      obtain ⟨hemail, hid, hbare, hfresh⟩ := client.created _ _ _ hs
      cases h
      exact ⟨s, ⟨hemail, hid, hfresh⟩, rfl⟩

theorem createSenders_ok {emails : List String} {n k : Nat}
    (h : exec (createSenders client emails n) w = (.ok k, w')) :
    ∃ news, w'.listing.senders = w.listing.senders ++ news ∧
      (∀ email ∈ emails, ∃ s ∈ news, s.email = normalize email) ∧
      ∀ s ∈ news, (∃ email ∈ emails, s.email = normalize email) ∧ s.id ≠ "" ∧
        ∀ t ∈ w.listing.senders, t.id ≠ s.id := by
  induction emails generalizing n w with
  | nil =>
    cases h
    exact ⟨[], (List.append_nil _).symm, by simp, by simp⟩
  | cons email emails ih =>
    unfold createSenders at h
    rw [exec_bind] at h
    split at h
    · rename_i u w₁ hfirst
      obtain ⟨s, ⟨hemail, hid, hfresh⟩, hlisting⟩ := createSender_ok hfirst
      obtain ⟨news, hrest, hall, hnews⟩ := ih h
      refine ⟨s :: news, by rw [hrest, hlisting, List.append_assoc]; rfl, fun e he => ?_, fun t ht => ?_⟩
      · rcases List.mem_cons.mp he with rfl | he
        · exact ⟨s, List.mem_cons_self, hemail⟩
        · obtain ⟨t, ht, hte⟩ := hall e he
          exact ⟨t, List.mem_cons_of_mem s ht, hte⟩
      · rcases List.mem_cons.mp ht with rfl | ht
        · exact ⟨⟨email, List.mem_cons_self, hemail⟩, hid, hfresh⟩
        · obtain ⟨⟨e, he, hte⟩, htid, htfresh⟩ := hnews t ht
          refine ⟨⟨e, List.mem_cons_of_mem email he, hte⟩, htid, fun x hx => htfresh x ?_⟩
          rw [hlisting]
          exact List.mem_append_left _ hx
    · cases h

/-- The ids that the second loop deletes. -/
def doomed (desired protected_ : List String) (items : List (String × Sender)) : List String :=
  (items.filter (fun (email, item) =>
    decide (email ∉ protected_) && decide (email ∉ desired) && decide (item.id ≠ ""))).map
      (fun (_, item) => Text.strip item.id)

theorem doomed_cons_pos {desired protected_ : List String} {items : List (String × Sender)}
    {email : String} {item : Sender} (h : email ∉ protected_ ∧ email ∉ desired ∧ item.id ≠ "") :
    doomed desired protected_ ((email, item) :: items) =
      Text.strip item.id :: doomed desired protected_ items := by
  unfold doomed
  rw [List.filter_cons_of_pos (by simpa [and_assoc] using h), List.map_cons]

theorem doomed_cons_neg {desired protected_ : List String} {items : List (String × Sender)}
    {email : String} {item : Sender} (h : ¬ (email ∉ protected_ ∧ email ∉ desired ∧ item.id ≠ "")) :
    doomed desired protected_ ((email, item) :: items) = doomed desired protected_ items := by
  unfold doomed
  rw [List.filter_cons_of_neg (by simpa [and_assoc] using h)]

theorem deleteSender_ok {id : String} {u : Unit}
    (h : exec (deleteSender client id) w = (.ok u, w')) :
    w'.listing.senders = w.listing.senders.filter (fun s => s.id ≠ Text.strip id) := by
  unfold deleteSender at h
  split at h
  · cases h
  · rw [exec_bind, exec_get] at h
    dsimp only at h
    rw [exec_bind, exec_modify] at h
    dsimp only at h
    split at h
    · cases h
    · cases h
      rfl

theorem deleteSenders_ok {desired protected_ : List String} {items : List (String × Sender)}
    {n k : Nat} (h : exec (deleteSenders client desired protected_ items n) w = (.ok k, w')) :
    w'.listing.senders =
      w.listing.senders.filter (fun s => s.id ∉ doomed desired protected_ items) := by
  induction items generalizing n w with
  | nil =>
    cases h
    exact (List.filter_eq_self.mpr (by simp [doomed])).symm
  | cons item items ih =>
    obtain ⟨email, item⟩ := item
    unfold deleteSenders at h
    split at h
    · rename_i hgone
      rw [exec_bind] at h
      split at h
      · rename_i u w₁ hfirst
        rw [ih h, deleteSender_ok hfirst, List.filter_filter]
        refine List.filter_congr (fun s _ => ?_)
        rw [doomed_cons_pos hgone, Bool.and_comm, ← Bool.decide_and]
        exact decide_eq_decide.mpr (by rw [List.mem_cons, not_or])
      · cases h
    · rename_i hkept
      rw [ih h, doomed_cons_neg hkept]

end

/-! ## Calls that change something -/

def Called (w : World) : Prop := w.calls ≠ []

section

variable {client : Client} {desired protected_ : List String}

theorem meets_createSender {P : World → Prop} {email : String}
    (h : normalize email = "" → ∀ w, P w → Called w) :
    Meets P (createSender client email) (fun _ => Called) (fun _ => Called) := by
  unfold createSender
  dsimp only
  split
  · rename_i hempty
    exact Meets.throw (h hempty)
  · refine Meets.bind Meets.get (fun w => ?_)
    refine Meets.bind (Q := fun _ => Called) (Meets.modify fun w' _ => ?_) (fun _ => ?_)
    · exact List.append_ne_nil_of_right_ne_nil _ (List.cons_ne_nil _ _)
    · split
      · exact Meets.throw (fun _ hcalled => hcalled)
      · exact Meets.modify (fun _ hcalled => hcalled)

theorem meets_deleteSender {P : World → Prop} {id : String}
    (h : Text.strip id = "" → ∀ w, P w → Called w) :
    Meets P (deleteSender client id) (fun _ => Called) (fun _ => Called) := by
  unfold deleteSender
  split
  · rename_i hempty
    exact Meets.throw (h hempty)
  · refine Meets.bind Meets.get (fun w => ?_)
    refine Meets.bind (Q := fun _ => Called) (Meets.modify fun w' _ => ?_) (fun _ => ?_)
    · exact List.append_ne_nil_of_right_ne_nil _ (List.cons_ne_nil _ _)
    · split
      · exact Meets.throw (fun _ hcalled => hcalled)
      · exact Meets.modify (fun _ hcalled => hcalled)

theorem createSenders_called {emails : List String} {n : Nat} :
    Meets Called (createSenders client emails n) (fun _ => Called) (fun _ => Called) := by
  induction emails generalizing n with
  | nil => exact Meets.pure (fun _ hcalled => hcalled)
  | cons email emails ih =>
    exact Meets.bind (meets_createSender (fun _ _ hcalled => hcalled)) (fun _ => ih)

theorem deleteSenders_called {items : List (String × Sender)} {n : Nat} :
    Meets Called (deleteSenders client desired protected_ items n) (fun _ => Called)
      (fun _ => Called) := by
  induction items generalizing n with
  | nil => exact Meets.pure (fun _ hcalled => hcalled)
  | cons item items ih =>
    unfold deleteSenders
    split
    · exact Meets.bind (meets_deleteSender (fun _ _ hcalled => hcalled)) (fun _ => ih)
    · exact ih

/-- A list of addresses to create leads to a call. -/
theorem createSenders_calls {emails : List String} {n : Nat} (hne : emails ≠ [])
    (hnormal : ∀ email ∈ emails, normalize email ≠ "") :
    Meets (fun _ => True) (createSenders client emails n) (fun _ => Called) (fun _ => Called) := by
  cases emails with
  | nil => exact absurd rfl hne
  | cons email emails =>
    exact Meets.bind (meets_createSender (fun hempty =>
      absurd hempty (hnormal email List.mem_cons_self))) (fun _ => createSenders_called)

theorem deleteSenders_calls {items : List (String × Sender)} {n : Nat}
    (hne : doomed desired protected_ items ≠ [])
    (hbare : ∀ item ∈ items, Text.strip item.2.id = item.2.id) :
    Meets (fun _ => True) (deleteSenders client desired protected_ items n) (fun _ => Called)
      (fun _ => Called) := by
  induction items generalizing n with
  | nil => exact absurd rfl hne
  | cons item items ih =>
    obtain ⟨email, item⟩ := item
    unfold deleteSenders
    split
    · rename_i hgone
      have hfirst : Meets (fun _ => True) (deleteSender client item.id) (fun _ => Called)
          (fun _ => Called) := by
        refine meets_deleteSender (fun hempty => ?_)
        rw [hbare (email, item) List.mem_cons_self] at hempty
        exact absurd hempty hgone.2.2
      exact hfirst.bind (fun _ => deleteSenders_called)
    · rename_i hkept
      rw [doomed_cons_neg hkept] at hne
      exact ih hne (fun other hother => hbare other (List.mem_cons_of_mem _ hother))

theorem deleteSenders_idle {items : List (String × Sender)} {n : Nat} {w : World}
    (h : doomed desired protected_ items = []) :
    exec (deleteSenders client desired protected_ items n) w = (.ok n, w) := by
  induction items generalizing n with
  | nil => rfl
  | cons item items ih =>
    obtain ⟨email, item⟩ := item
    unfold deleteSenders
    split
    · rename_i hgone
      rw [doomed_cons_pos hgone] at h
      cases h
    · rename_i hkept
      rw [doomed_cons_neg hkept] at h
      exact ih h

end

/-! ## A whole call -/

theorem new_ne_empty : "new" ≠ "" := by decide

theorem new_bare : Text.strip "new" = "new" := by decide

/-- A provider that shows all senders on one page, makes one new sender, and deletes on demand. -/
def sampleClient : Client where
  list_senders senders _ := .ok (senders, none)
  other_listings := .ok ()
  create_sender senders email :=
    if ∀ t ∈ senders, t.id ≠ "new" then .ok ⟨"new", email, "CREATING"⟩ else .error "conflict"
  delete_sender _ _ := .ok ()
  pages_meet senders := by
    refine ⟨fun _ => 0, rfl, fun page items header h => ?_⟩
    cases h
    exact (List.append_nil _).symm
  created senders email s h := by
    split at h
    · rename_i hfresh
      cases h
      exact ⟨rfl, new_ne_empty, new_bare, hfresh⟩
    · cases h

section

variable {client : Client} {fuel : Nat} {desired_emails protected_emails : List String} {w w' : World}

/-- The listing after a call that completed: what was made, without what was deleted. -/
theorem reconcileSenders_ok {counts : Counts}
    (h : exec (reconcileSenders client fuel desired_emails protected_emails) w = (.ok counts, w')) :
    ∃ news, w'.listing.senders = (w.listing.senders ++ news).filter (fun s => s.id ∉
        doomed (normalized desired_emails) (normalized protected_emails)
          (existingItems w.listing.senders)) ∧
      (∀ email ∈ normalized desired_emails, email ∉ existingEmails w.listing.senders →
        ∃ s ∈ news, s.email = email) ∧
      ∀ s ∈ news, (s.email ∈ normalized desired_emails ∧ s.email ∉ existingEmails w.listing.senders) ∧
        s.id ≠ "" ∧ ∀ t ∈ w.listing.senders, t.id ≠ s.id := by
  unfold reconcileSenders at h
  dsimp only at h
  rw [exec_bind] at h
  rcases snapshot_cases client fuel w with hsnapshot | ⟨e, hsnapshot⟩
  · rw [hsnapshot] at h
    dsimp only at h
    rw [exec_bind] at h
    split at h
    · rename_i created w₁ hcreate
      rw [exec_bind] at h
      split at h
      · rename_i deleted w₂ hdelete
        cases h
        obtain ⟨news, hlisting, hall, hnews⟩ := createSenders_ok hcreate
        refine ⟨news, by rw [deleteSenders_ok hdelete, hlisting], fun email hemail hnew => ?_,
          fun s hs => ?_⟩
        · obtain ⟨s, hs, heq⟩ := hall email (mem_sorted.mpr
            (List.mem_filter.mpr ⟨hemail, by rwa [decide_eq_true_eq]⟩))
          exact ⟨s, hs, heq.trans (normalize_of_normalized hemail).1⟩
        · obtain ⟨⟨email, hemail, heq⟩, hid, hfresh⟩ := hnews s hs
          have hmem := List.mem_filter.mp (mem_sorted.mp hemail)
          rw [heq, (normalize_of_normalized hmem.1).1]
          exact ⟨⟨hmem.1, by simpa using hmem.2⟩, hid, hfresh⟩
      · cases h
    · cases h
  · rw [hsnapshot] at h
    cases h

theorem called_of_meets {α : Type} {c : Program World String α}
    (h : Meets (fun _ => True) c (fun _ => Called) (fun _ => Called)) (w : World) :
    Called (exec c w).2 := by
  have hrun := h w trivial
  revert hrun
  rcases exec c w with ⟨_ | _, w'⟩
  · exact id
  · exact id

/-- The addresses that the first loop creates senders for. -/
def missing (desired : List String) (senders : List Sender) : List String :=
  sorted (desired.filter (fun email => email ∉ existingEmails senders))

theorem missing_eq_nil {desired : List String} {senders : List Sender} :
    missing desired senders = [] ↔ ∀ email ∈ desired, email ∈ existingEmails senders := by
  rw [List.eq_nil_iff_forall_not_mem]
  unfold missing
  simp only [mem_sorted, List.mem_filter, decide_eq_true_eq, not_and, not_not]

/-- The calls after the snapshot. -/
theorem exec_reconcileSenders
    (h : exec (snapshot client fuel) w = (.ok w.listing.senders, w)) :
    exec (reconcileSenders client fuel desired_emails protected_emails) w =
      exec (do
        let created ← createSenders client (missing (normalized desired_emails) w.listing.senders) 0
        let deleted ← deleteSenders client (normalized desired_emails) (normalized protected_emails)
          (existingItems w.listing.senders) 0
        pure ⟨created, deleted, (sorted ((normalized desired_emails).filter
          (fun email => email ∈ existingEmails w.listing.senders))).length⟩) w := by
  unfold reconcileSenders
  dsimp only
  rw [exec_bind, h]
  rfl

/-- A call has nothing to do where every desired address is listed and nothing is to be deleted. -/
theorem no_calls_iff {listing : Listing} :
    (∀ client fuel, (exec (reconcileSenders client fuel desired_emails protected_emails)
        ⟨listing, []⟩).2.calls = []) ↔
      (∀ email ∈ normalized desired_emails, email ∈ existingEmails listing.senders) ∧
        doomed (normalized desired_emails) (normalized protected_emails)
          (existingItems listing.senders) = [] := by
  rw [← missing_eq_nil]
  constructor
  · intro h
    by_contra hwork
    have hcalls := h sampleClient 1
    have hsnapshot : exec (snapshot sampleClient 1) ⟨listing, []⟩ =
        (.ok listing.senders, ⟨listing, []⟩) := rfl
    rw [exec_reconcileSenders hsnapshot] at hcalls
    refine absurd hcalls (called_of_meets ?_ _)
    by_cases hmissing : missing (normalized desired_emails) listing.senders = []
    · have hgone : doomed (normalized desired_emails) (normalized protected_emails)
          (existingItems listing.senders) ≠ [] := fun hnone => hwork ⟨hmissing, hnone⟩
      rw [hmissing]
      refine Meets.bind (Q := fun _ _ => True) (Meets.pure fun _ _ => trivial) (fun _ => ?_)
      refine Meets.bind (deleteSenders_calls hgone fun item hitem => ?_) (fun _ => ?_)
      · exact listing.bare _ (mem_of_existing (mem_existingItems.mp hitem)).1
      · exact Meets.pure (fun _ hcalled => hcalled)
    · refine Meets.bind (createSenders_calls hmissing fun email hemail => ?_) (fun _ => ?_)
      · obtain ⟨hnormal, hne⟩ := normalize_of_normalized
          (List.mem_of_mem_filter (mem_sorted.mp hemail))
        rwa [hnormal]
      · refine Meets.bind deleteSenders_called (fun _ => ?_)
        exact Meets.pure (fun _ hcalled => hcalled)
  · rintro ⟨hmissing, hnone⟩ client fuel
    rcases snapshot_cases client fuel ⟨listing, []⟩ with hsnapshot | ⟨e, hsnapshot⟩
    · rw [exec_reconcileSenders hsnapshot, hmissing]
      change (exec (deleteSenders client _ _ _ 0 >>= _) ⟨listing, []⟩).2.calls = []
      rw [exec_bind, deleteSenders_idle hnone]
      rfl
    · unfold reconcileSenders
      dsimp only
      rw [exec_bind, hsnapshot]

end

/-! ## What is deleted -/

/-- A sender that the call deletes: the last of its address, which is neither desired nor
protected. -/
def Gone (senders : List Sender) (desired protected_ : List String) (s : Sender) : Prop :=
  existing senders (normalize s.email) = some s ∧ normalize s.email ∉ protected_ ∧
    normalize s.email ∉ desired ∧ s.id ≠ ""

section

variable {listing : Listing} {desired protected_ : List String} {s t : Sender}

theorem mem_doomed {id : String} :
    id ∈ doomed desired protected_ (existingItems listing.senders) ↔
      ∃ s ∈ listing.senders, Gone listing.senders desired protected_ s ∧ s.id = id := by
  unfold doomed
  simp only [List.mem_map, List.mem_filter, Bool.and_eq_true, decide_eq_true_eq, Prod.exists]
  constructor
  · rintro ⟨email, s, ⟨hitem, ⟨hprotected, hdesired⟩, hid⟩, rfl⟩
    have hexisting := mem_existingItems.mp hitem
    obtain ⟨hs, rfl, -⟩ := mem_of_existing hexisting
    exact ⟨s, hs, ⟨hexisting, hprotected, hdesired, hid⟩, (listing.bare s hs).symm⟩
  · rintro ⟨s, hs, ⟨hexisting, hprotected, hdesired, hid⟩, rfl⟩
    exact ⟨normalize s.email, s, ⟨mem_existingItems.mpr hexisting, ⟨hprotected, hdesired⟩, hid⟩,
      listing.bare s hs⟩

theorem same_sender (hs : s ∈ listing.senders) (ht : t ∈ listing.senders) (hid : s.id ≠ "")
    (heq : s.id = t.id) : s = t := by
  have hnodup : ((listing.senders.filter (fun s => s.id ≠ "")).map Sender.id).Nodup :=
    List.pairwise_map.mpr listing.distinct
  refine List.inj_on_of_nodup_map hnodup (List.mem_filter.mpr ⟨hs, ?_⟩)
    (List.mem_filter.mpr ⟨ht, ?_⟩) heq
  · rwa [decide_eq_true_eq]
  · rwa [decide_eq_true_eq, ← heq]

theorem doomed_iff (hs : s ∈ listing.senders) :
    s.id ∈ doomed desired protected_ (existingItems listing.senders) ↔
      Gone listing.senders desired protected_ s := by
  rw [mem_doomed]
  constructor
  · rintro ⟨t, ht, hgone, heq⟩
    rwa [← same_sender ht hs hgone.2.2.2 heq]
  · intro hgone
    exact ⟨s, hs, hgone, rfl⟩

/-- An id that stands before the last sender of an address is not the id of that one. -/
theorem earlier_ne_last {email : String} {earlier : List Sender} {last : Sender}
    (hsplit : sendersOf listing.senders email = earlier ++ [last]) (hs : s ∈ earlier)
    (hid : s.id ≠ "") : s.id ≠ last.id := by
  have hpairwise : ((earlier ++ [last]).filter (fun s => s.id ≠ "")).Pairwise
      (fun s t => s.id ≠ t.id) := by
    rw [← hsplit]
    exact listing.distinct.sublist (List.filter_sublist.filter _)
  intro heq
  rw [List.filter_append, List.pairwise_append] at hpairwise
  refine hpairwise.2.2 s (List.mem_filter.mpr ⟨hs, ?_⟩) last (List.mem_filter.mpr ⟨?_, ?_⟩) heq
  · rwa [decide_eq_true_eq]
  · exact List.mem_singleton_self last
  · rwa [decide_eq_true_eq, ← heq]

theorem exists_split {email : String} (h : s ∈ sendersOf listing.senders email) :
    ∃ earlier last, sendersOf listing.senders email = earlier ++ [last] := by
  rcases List.eq_nil_or_concat' (sendersOf listing.senders email) with hnil | hconcat
  · rw [hnil] at h
    cases h
  · exact hconcat

theorem existing_last {email : String} (hne : email ≠ "") {senders earlier : List Sender}
    {last : Sender} (hsplit : sendersOf senders email = earlier ++ [last]) :
    existing senders email = some last := by
  rw [existing_eq hne, hsplit, List.getLast?_concat]

theorem mem_sendersOf {senders : List Sender} {email : String} :
    s ∈ sendersOf senders email ↔ s ∈ senders ∧ normalize s.email = email := by
  unfold sendersOf
  rw [List.mem_filter, decide_eq_true_eq]

end

/-! ## What is left -/

section

variable {before after : Listing} {desired protected_ : List String} {news : List Sender}
  {usable : String → Bool}

/-- A completed call: what was made and what was deleted. -/
structure Completed (before after : Listing) (desired protected_ : List String)
    (news : List Sender) : Prop where
  left : after.senders = (before.senders ++ news).filter (fun s => s.id ∉
    doomed desired protected_ (existingItems before.senders))
  made : ∀ email ∈ desired, email ∉ existingEmails before.senders → ∃ s ∈ news, s.email = email
  fresh : ∀ s ∈ news, (s.email ∈ desired ∧ s.email ∉ existingEmails before.senders) ∧ s.id ≠ "" ∧
    ∀ t ∈ before.senders, t.id ≠ s.id
  normal : ∀ email ∈ desired, normalize email = email ∧ email ≠ ""
  named : ∀ email ∈ protected_, email ≠ ""

namespace Completed

variable (h : Completed before after desired protected_ news) {s : Sender}
include h

theorem mem_after_of_before (hs : s ∈ before.senders) :
    s ∈ after.senders ↔ ¬ Gone before.senders desired protected_ s := by
  rw [h.left, List.mem_filter, decide_eq_true_eq, doomed_iff hs]
  exact and_iff_right (List.mem_append_left _ hs)

theorem mem_after_of_new (hs : s ∈ news) : s ∈ after.senders := by
  rw [h.left, List.mem_filter, decide_eq_true_eq]
  refine ⟨List.mem_append_right _ hs, fun hdoomed => ?_⟩
  obtain ⟨t, ht, -, heq⟩ := mem_doomed.mp hdoomed
  exact (h.fresh s hs).2.2 t ht heq

theorem mem_after_cases (hs : s ∈ after.senders) :
    s ∈ before.senders ∧ ¬ Gone before.senders desired protected_ s ∨ s ∈ news := by
  have hmem := hs
  rw [h.left, List.mem_filter] at hmem
  rcases List.mem_append.mp hmem.1 with hbefore | hnew
  · exact .inl ⟨hbefore, (h.mem_after_of_before hbefore).mp hs⟩
  · exact .inr hnew

theorem new_desired (hs : s ∈ news) : normalize s.email ∈ desired := by
  obtain ⟨⟨hdesired, -⟩, -⟩ := h.fresh s hs
  rwa [(h.normal s.email hdesired).1]

/-- Of an address that is not wanted, at most the last sender goes. -/
theorem sendersOf_after {email : String} (hne : email ≠ "") (hdesired : email ∉ desired)
    (hprotected : email ∉ protected_) {earlier : List Sender} {last : Sender}
    (hsplit : sendersOf before.senders email = earlier ++ [last]) :
    sendersOf after.senders email = if last.id = "" then earlier ++ [last] else earlier := by
  have hmem : ∀ s ∈ earlier ++ [last], s ∈ before.senders ∧ normalize s.email = email := by
    intro s hs
    rw [← hsplit] at hs
    exact mem_sendersOf.mp hs
  have hnews : sendersOf news email = [] := by
    unfold sendersOf
    rw [List.filter_eq_nil_iff]
    intro s hs
    rw [decide_eq_true_eq]
    rintro rfl
    exact hdesired (h.new_desired hs)
  have hlast := existing_last hne hsplit
  have hafter : sendersOf after.senders email = (earlier ++ [last]).filter (fun s => s.id ∉
      doomed desired protected_ (existingItems before.senders)) := by
    rw [← hsplit, h.left]
    unfold sendersOf at hnews ⊢
    rw [List.filter_comm, List.filter_append, hnews, List.append_nil]
  have hgone : ∀ s ∈ earlier ++ [last],
      (s.id ∈ doomed desired protected_ (existingItems before.senders) ↔ s = last ∧ s.id ≠ "") := by
    intro s hs
    obtain ⟨hbefore, hemail⟩ := hmem s hs
    rw [doomed_iff hbefore]
    unfold Gone
    rw [hemail, hlast, Option.some.injEq]
    exact ⟨fun hall => ⟨hall.1.symm, hall.2.2.2⟩, fun hall => ⟨hall.1.symm, hprotected, hdesired, hall.2⟩⟩
  rw [hafter]
  split
  · rename_i hid
    refine List.filter_eq_self.mpr (fun s hs => ?_)
    rw [decide_eq_true_eq, hgone s hs]
    rintro ⟨rfl, hid'⟩
    exact hid' hid
  · rename_i hid
    rw [List.filter_append, List.filter_eq_self.mpr, List.filter_eq_nil_iff.mpr, List.append_nil]
    · intro s hs
      rw [decide_eq_true_eq, not_not, hgone s (List.mem_append_right _ hs)]
      obtain rfl := List.mem_singleton.mp hs
      exact ⟨rfl, hid⟩
    · intro s hs
      rw [decide_eq_true_eq, hgone s (List.mem_append_left _ hs)]
      rintro ⟨rfl, hid'⟩
      exact earlier_ne_last hsplit hs hid' rfl

theorem served_iff :
    (∀ email ∈ desired, (∃ s ∈ before.senders, normalize s.email = email ∧ usable s.status = true) ∨
        ∃ s ∈ after.senders, s ∉ before.senders ∧ normalize s.email = email) ↔
      ∀ email ∈ desired, ∀ s ∈ before.senders, normalize s.email = email →
        ∃ t ∈ before.senders, normalize t.email = email ∧ usable t.status = true := by
  constructor
  · intro hserved email hdesired s hs hemail
    rcases hserved email hdesired with hold | ⟨t, ht, hnew, htemail⟩
    · exact hold
    · rcases h.mem_after_cases ht with ⟨hbefore, -⟩ | hmade
      · exact absurd hbefore hnew
      · obtain ⟨⟨htdesired, hunlisted⟩, -⟩ := h.fresh t hmade
        rw [(h.normal t.email htdesired).1] at htemail
        rw [htemail] at hunlisted
        exact absurd (mem_existingEmails.mpr ⟨s, hs, hemail, (h.normal email hdesired).2⟩) hunlisted
  · intro hlisted email hdesired
    by_cases hexists : email ∈ existingEmails before.senders
    · obtain ⟨s, hs, hemail, -⟩ := mem_existingEmails.mp hexists
      exact .inl (hlisted email hdesired s hs hemail)
    · obtain ⟨s, hs, rfl⟩ := h.made email hdesired hexists
      refine .inr ⟨s, h.mem_after_of_new hs, fun hold => ?_, (h.normal s.email hdesired).1⟩
      exact (h.fresh s hs).2.2 s hold rfl

theorem spared (hs : s ∈ before.senders)
    (hwanted : normalize s.email ∈ desired ∨ normalize s.email ∈ protected_) : s ∈ after.senders := by
  rw [h.mem_after_of_before hs]
  rintro ⟨-, hprotected, hdesired, -⟩
  rcases hwanted with hwanted | hwanted
  · exact hdesired hwanted
  · exact hprotected hwanted

/-- Every desired address is listed afterwards. -/
theorem all_listed {email : String} (hdesired : email ∈ desired) :
    email ∈ existingEmails after.senders := by
  obtain ⟨hnormal, hne⟩ := h.normal email hdesired
  rw [mem_existingEmails]
  by_cases hexists : email ∈ existingEmails before.senders
  · obtain ⟨s, hs, rfl, -⟩ := mem_existingEmails.mp hexists
    exact ⟨s, h.spared hs (.inl hdesired), rfl, hne⟩
  · obtain ⟨s, hs, rfl⟩ := h.made email hdesired hexists
    exact ⟨s, h.mem_after_of_new hs, hnormal, hne⟩

theorem reconciled_iff {again : Client → Nat → Program World String Counts}
    (hagain : (∀ client fuel, (exec (again client fuel) ⟨after, []⟩).2.calls = []) ↔
      (∀ email ∈ desired, email ∈ existingEmails after.senders) ∧
        doomed desired protected_ (existingItems after.senders) = []) :
    Reconciled usable (· ∈ desired) (· ∈ protected_) before after again ↔
      Regular usable (· ∈ desired) (· ∈ protected_) before.senders := by
  constructor
  · rintro ⟨hserved, -, hremoved, hsettled⟩
    refine ⟨h.served_iff.mp hserved, fun s hs hblank husable => ?_,
      fun email hne hdesired hprotected earlier last hsplit => ⟨fun s hs husable => ?_, fun hid => ?_⟩⟩
    · by_contra hid
      refine hremoved s hs (fun hdesired => (h.normal _ hdesired).2 hblank)
        (fun hprotected => h.named _ hprotected hblank) husable hid
        ((h.mem_after_of_before hs).mpr ?_)
      rintro ⟨hexisting, -⟩
      rw [hblank, existing_empty] at hexisting
      cases hexisting
    · obtain ⟨hbefore, hemail⟩ := mem_sendersOf.mp
        (show s ∈ sendersOf before.senders email by
          rw [hsplit]
          exact List.mem_append_left _ hs)
      by_contra hid
      refine hremoved s hbefore (by rwa [hemail]) (by rwa [hemail]) husable hid
        ((h.mem_after_of_before hbefore).mpr ?_)
      rintro ⟨hexisting, -⟩
      rw [hemail, existing_last hne hsplit] at hexisting
      exact earlier_ne_last hsplit hs hid (congrArg Sender.id (Option.some.inj hexisting)).symm
    · intro s hs
      have hafter := h.sendersOf_after hne hdesired hprotected hsplit
      rw [if_neg hid] at hafter
      have hexisting : existing after.senders email = some s := by
        rw [existing_eq hne, hafter]
        exact hs
      obtain ⟨hmem, hemail, -⟩ := mem_of_existing hexisting
      by_contra hsid
      have hgone : Gone after.senders desired protected_ s :=
        ⟨by rw [hemail, hexisting], by rwa [hemail], by rwa [hemail], hsid⟩
      have hdoomed := (doomed_iff hmem).mpr hgone
      rw [(hagain.mp hsettled).2] at hdoomed
      cases hdoomed
  · rintro ⟨husable, hblank, hlast⟩
    refine ⟨h.served_iff.mpr husable, fun s hs => h.spared hs,
      fun s hs hdesired hprotected huse hid hafter => ?_, hagain.mpr ⟨fun email => h.all_listed, ?_⟩⟩
    · have hne : normalize s.email ≠ "" := fun hempty => hid (hblank s hs hempty huse)
      have hmem : s ∈ sendersOf before.senders (normalize s.email) := mem_sendersOf.mpr ⟨hs, rfl⟩
      obtain ⟨earlier, last, hsplit⟩ := exists_split hmem
      rw [hsplit] at hmem
      rcases List.mem_append.mp hmem with hearlier | hlast'
      · exact hid ((hlast _ hne hdesired hprotected earlier last hsplit).1 s hearlier huse)
      · obtain rfl := List.mem_singleton.mp hlast'
        exact (h.mem_after_of_before hs).mp hafter
          ⟨existing_last hne hsplit, hprotected, hdesired, hid⟩
    · rw [List.eq_nil_iff_forall_not_mem]
      intro id hdoomed
      obtain ⟨s, hs, ⟨hexisting, hprotected, hdesired, hid⟩, -⟩ := mem_doomed.mp hdoomed
      obtain ⟨-, -, hne⟩ := mem_of_existing hexisting
      rcases h.mem_after_cases hs with ⟨hbefore, -⟩ | hmade
      · obtain ⟨earlier, last, hsplit⟩ := exists_split (mem_sendersOf.mpr ⟨hbefore, rfl⟩)
        have hafter := h.sendersOf_after hne hdesired hprotected hsplit
        rw [existing_eq hne, hafter] at hexisting
        split at hexisting
        · rename_i hlastid
          rw [List.getLast?_concat] at hexisting
          cases hexisting
          exact hid hlastid
        · rename_i hlastid
          exact hid ((hlast _ hne hdesired hprotected earlier last hsplit).2 hlastid s hexisting)
      · exact hdesired (h.new_desired hmade)

end Completed

end

/-- The states of a sender that mail can be sent from, now or soon. -/
def usableState (status : String) : Bool :=
  decide (status ≠ "DELETING") && decide (status ≠ "DELETED") && decide (status ≠ "FAILED")

/-- Alice is active, and nothing is protected. -/
def aliceDb : Database := ⟨[⟨"c1", "Alice@moa.kr", "active"⟩], []⟩

/-- Alice's sender is active, and Bob's is still there. -/
def staleListing : Listing where
  senders := [⟨"s1", "alice@moa.kr", "ACTIVE"⟩, ⟨"s2", "bob@moa.kr", "ACTIVE"⟩]
  distinct := by decide
  bare := by decide

theorem stale_completes : (exec (reconcileCompany sampleClient 1 aliceDb "c1" "moa.kr")
    ⟨staleListing, []⟩).1.toOption = some ⟨0, 1, 1⟩ := by
  decide +kernel

/-- The sender of Alice, who was deactivated a moment ago, is on its way out. -/
def deletingListing : Listing where
  senders := [⟨"s1", "alice@moa.kr", "DELETING"⟩]
  distinct := by decide
  bare := by decide

end moaworks.oci_email_operations
