-- The approved senders of a company at the mail provider (oci_email_operations.py): which
-- addresses are desired, and the calls that bring the listing of the provider in line.
import Mathlib.Data.List.Sort
import Mathlib.Data.String.Basic
import MoaWorks.Lib.Program
import MoaWorks.Lib.TextLaws

namespace moaworks.oci_email_operations

/-! ## The provider -/

/-- A sender as `list_senders` shows it. -/
structure Sender where
  id : String
  email : String
  status : String
  deriving DecidableEq

/-- The senders of the domain at the provider. An id is an identifier of the provider: it stands
for one sender, and has no white space around it. -/
structure Listing where
  senders : List Sender
  distinct : (senders.filter (fun s => s.id ≠ "")).Pairwise (fun s t => s.id ≠ t.id)
  bare : ∀ s ∈ senders, Text.strip s.id = s.id

inductive Call
  | create_sender (email : String)
  | delete_sender (id : String)
  deriving DecidableEq

structure World where
  listing : Listing
  /-- The calls that change senders, oldest first. -/
  calls : List Call

/-- `response.headers.get("opc-next-page")`, where it is not empty. -/
def nextPage (header : Option String) : Option String := header.filter (fun token => token ≠ "")

/-- The interface of the provider. A page goes on where the one before it ended, a sender is
created with the address asked for and an id of its own. -/
structure Client where
  list_senders : List Sender → Option String → Except String (List Sender × Option String)
  /-- The listings of suppressions and of domains, of which only an error matters here. -/
  other_listings : Except String Unit
  create_sender : List Sender → String → Except String Sender
  delete_sender : List Sender → String → Except String Unit
  pages_meet : ∀ senders, ∃ start : Option String → Nat, start none = 0 ∧
    ∀ page items header, list_senders senders page = .ok (items, header) →
      senders.drop (start page) = items ++
        match nextPage header with
        | none => []
        | some token => senders.drop (start (some token))
  created : ∀ senders email s, create_sender senders email = .ok s →
    s.email = email ∧ s.id ≠ "" ∧ Text.strip s.id = s.id ∧ ∀ t ∈ senders, t.id ≠ s.id

/-- What the provider has after it created `s`. -/
def Listing.add (l : Listing) (s : Sender) (hbare : Text.strip s.id = s.id)
    (hfresh : ∀ t ∈ l.senders, t.id ≠ s.id) : Listing where
  senders := l.senders ++ [s]
  distinct := by
    rw [List.filter_append, List.pairwise_append]
    refine ⟨l.distinct, List.Pairwise.filter _ (List.pairwise_singleton _ s), fun t ht u hu => ?_⟩
    obtain rfl := List.mem_singleton.mp (List.mem_of_mem_filter hu)
    exact hfresh t (List.mem_of_mem_filter ht)
  bare t ht := by
    rcases List.mem_append.mp ht with ht | ht
    · exact l.bare t ht
    · obtain rfl := List.mem_singleton.mp ht
      exact hbare

def Listing.remove (l : Listing) (id : String) : Listing where
  senders := l.senders.filter (fun s => s.id ≠ id)
  distinct := by
    rw [List.filter_filter]
    refine List.Pairwise.sublist ?_ l.distinct
    rw [← List.filter_filter, List.filter_comm]
    exact List.filter_sublist
  bare s hs := l.bare s (List.mem_of_mem_filter hs)

/-! ## Addresses -/

/-- `email.strip().lower()` -/
@[irreducible] def normalize (email : String) : String := Text.lower (Text.strip email)

/-- A row of `users`. -/
structure UserRow where
  company_id : String
  email : String
  status : String

/-- A row of `mail_provider_configs`. -/
structure ProviderRow where
  company_id : String
  from_address : Option String
  provider_type : String
  active : Bool

structure Database where
  users : List UserRow
  mail_provider_configs : List ProviderRow

def endsWith (suffix email : String) : Bool := suffix.toList.isSuffixOf email.toList

/-- The sets of addresses are lists here, of which only the members matter. -/
def buildDesiredSenderEmails (user_rows : List UserRow) (mail_domain : String)
    (protected_emails : List String) : List String :=
  let suffix := "@" ++ normalize mail_domain
  ((protected_emails.filter (fun email =>
    decide (Text.strip email ≠ "") && endsWith suffix (normalize email))).map normalize) ++
  ((user_rows.filter (fun row =>
    decide (normalize row.status = "active") && endsWith suffix (normalize row.email))).map
      (fun row => normalize row.email))

/-- `{email.strip().lower() for email in emails if email and email.strip()}` -/
def normalized (emails : List String) : List String :=
  (emails.filter (fun email => Text.strip email ≠ "")).map normalize

/-- `sorted(…)` of a set. -/
def sorted (emails : List String) : List String := emails.dedup.insertionSort (· ≤ ·)

/-! ## Calls -/

/-- `_all_pages` of the senders. Pages without an end are not waited for. -/
def allPages (client : Client) (senders : List Sender) :
    Nat → Option String → List Sender → Except String (List Sender)
  | 0, _, _ => .error "no last page"
  | fuel + 1, page, items =>
    match client.list_senders senders page with
    | .error e => .error e
    | .ok (more, header) =>
      match nextPage header with
      | none => .ok (items ++ more)
      | some token => allPages client senders fuel (some token) (items ++ more)

def snapshot (client : Client) (fuel : Nat) : Program World String (List Sender) := do
  let w ← get
  match client.other_listings with
  | .error e => throw e
  | .ok _ =>
    match allPages client w.listing.senders fuel none [] with
    | .error e => throw e
    | .ok senders => pure senders

def createSender (client : Client) (email : String) : Program World String Unit := do
  let email := normalize email
  if email = "" then throw "OCI 승인 발신자 이메일이 필요합니다."
  else
    let w ← get
    modify (fun w => { w with calls := w.calls ++ [.create_sender email] })
    match h : client.create_sender w.listing.senders email with
    | .error e => throw e
    | .ok s =>
      have hs := client.created _ _ _ h
      modify (fun w' => { w' with listing := w.listing.add s hs.2.2.1 hs.2.2.2 })

def deleteSender (client : Client) (sender_id : String) : Program World String Unit := do
  if Text.strip sender_id = "" then throw "OCI 승인 발신자 ID가 필요합니다."
  else
    let w ← get
    modify (fun w => { w with calls := w.calls ++ [.delete_sender (Text.strip sender_id)] })
    match client.delete_sender w.listing.senders (Text.strip sender_id) with
    | .error e => throw e
    | .ok _ => modify (fun w => { w with listing := w.listing.remove (Text.strip sender_id) })

/-- `existing`: of several senders with one address, the last one stays in the dictionary. -/
def existing (senders : List Sender) (email : String) : Option Sender :=
  (senders.filter (fun s => decide (Text.strip s.email ≠ "") && decide (normalize s.email = email))).getLast?

def existingEmails (senders : List Sender) : List String :=
  (senders.filter (fun s => Text.strip s.email ≠ "")).map (fun s => normalize s.email)

/-- The loop over `sorted(desired - set(existing))`, with the count so far. -/
def createSenders (client : Client) : List String → Nat → Program World String Nat
  | [], created => pure created
  | email :: emails, created => do
    createSender client email
    createSenders client emails (created + 1)

/-- The loop over `sorted(existing.items())`, with the count so far. -/
def deleteSenders (client : Client) (desired protected_ : List String) :
    List (String × Sender) → Nat → Program World String Nat
  | [], deleted => pure deleted
  | (email, item) :: items, deleted => do
    if email ∉ protected_ ∧ email ∉ desired ∧ item.id ≠ "" then
      deleteSender client item.id
      deleteSenders client desired protected_ items (deleted + 1)
    else
      deleteSenders client desired protected_ items deleted

structure Counts where
  created : Nat
  deleted : Nat
  unchanged : Nat
  deriving DecidableEq

def existingItems (senders : List Sender) : List (String × Sender) :=
  (sorted (existingEmails senders)).filterMap (fun email =>
    (existing senders email).map (fun item => (email, item)))

def reconcileSenders (client : Client) (fuel : Nat) (desired_emails protected_emails : List String) :
    Program World String Counts := do
  let desired := normalized desired_emails
  let protected_ := normalized protected_emails
  let senders ← snapshot client fuel
  let created ← createSenders client
    (sorted (desired.filter (fun email => email ∉ existingEmails senders))) 0
  let deleted ← deleteSenders client desired protected_ (existingItems senders) 0
  pure ⟨created, deleted,
    (sorted (desired.filter (fun email => email ∈ existingEmails senders))).length⟩

/-- The sender addresses of the active provider configurations. -/
def protectedEmails (db : Database) (company_id : String) : List String :=
  (db.mail_provider_configs.filter (fun row => decide (row.company_id = company_id) &&
    (decide (row.provider_type = "oci_email_delivery") || decide (row.provider_type = "oci_smtp")) &&
      row.active)).filterMap (fun row => row.from_address.filter (fun address => address ≠ ""))

def desiredEmails (db : Database) (company_id mail_domain : String) : List String :=
  buildDesiredSenderEmails (db.users.filter (fun row => row.company_id = company_id)) mail_domain
    (protectedEmails db company_id)

def reconcileCompany (client : Client) (fuel : Nat) (db : Database) (company_id mail_domain : String) :
    Program World String Counts :=
  reconcileSenders client fuel (desiredEmails db company_id mail_domain)
    (protectedEmails db company_id)

end moaworks.oci_email_operations
