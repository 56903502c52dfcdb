-- What the writes of `ingest` do to the tables: the mail of a content, who has it, and
-- the rows that stay as they are.
import MoaWorks.InboundIngest

namespace moaworks.mail_inbound_operations

open mail_submission_operations (Bytes Disposition Error)
open Raise (bind_ok require_ok)

variable {env : Environment} {db db' : Db} {files files' : Files} {work : Work} {ids : NewIds}
  {key key' : Key} {digest digest' : Digest} {user_id : String}
variable {r : Request} {row : Inbound} {id message_id : String}

/-! ## Paths -/

theorem length_of_isSha256 (digest : Digest) : digest.1.toList.length = 64 := by
  have h := digest.2
  unfold isSha256 at h
  rw [Bool.and_eq_true] at h
  exact of_decide_eq_true h.1

theorem toList_cut (n : Nat) (s : String) : (cut n s).toList = s.toList.take n :=
  String.toList_ofList

theorem toList_relative (digest : Digest) (name : String) : (relative digest name).toList =
    "mail/inbound/".toList ++ digest.1.toList.take 2 ++ "/".toList ++ digest.1.toList ++
      "/".toList ++ name.toList := by
  unfold relative
  rw [String.toList_append, String.toList_append, String.toList_append, String.toList_append,
    String.toList_append, toList_cut]

/-- The path says the content and the name of the file. -/
theorem relative_injective {name name' : String} (h : relative digest name = relative digest' name') :
    digest = digest' ∧ name = name' := by
  have hlist := congrArg String.toList h
  rw [toList_relative, toList_relative] at hlist
  have hlength := (length_of_isSha256 digest).trans (length_of_isSha256 digest').symm
  -- All the parts before the name have the length that they have in the other path.
  obtain ⟨hparts, hname⟩ := List.append_inj hlist (by simp only [List.length_append, List.length_take, hlength])
  obtain ⟨hparts, _⟩ := List.append_inj hparts (by simp only [List.length_append, List.length_take, hlength])
  obtain ⟨_, hdigest⟩ := List.append_inj hparts (by simp only [List.length_append, List.length_take, hlength])
  exact ⟨Subtype.ext (String.toList_inj.1 hdigest), String.toList_inj.1 hname⟩

theorem attachmentName_injective {i j : Nat} (h : attachmentName i = attachmentName j) : i = j := by
  have hlist := congrArg String.toList h
  simp only [attachmentName, String.toList_append] at hlist
  have hrepr := List.append_cancel_left (List.append_cancel_right hlist)
  exact Nat.repr_injective (String.toList_inj.1 hrepr)

theorem attachmentName_ne_raw (i : Nat) : attachmentName i ≠ "raw.eml" := by
  intro h
  have hlist := congrArg String.toList h
  simp only [attachmentName, String.toList_append, List.append_assoc] at hlist
  have hfirst : some 'a' = "raw.eml".toList.head? := congrArg List.head? hlist
  exact absurd hfirst (by decide)

/-! ## The file store -/

/-- Files come, and what is stored stays. -/
def Keeps (files files' : Files) : Prop :=
  ∀ path content, files.rows path = some content → files'.rows path = some content

theorem Keeps.refl (files : Files) : Keeps files files := fun _ _ h => h

theorem Keeps.trans {files'' : Files} (h : Keeps files files') (h' : Keeps files' files'') :
    Keeps files files'' := fun path content hc => h' path content (h path content hc)

/-- The file is there afterwards, and nothing else has come. -/
theorem store_ok {name : String} {content : Bytes} (h : store files digest name content = .ok files') :
    Keeps files files' ∧ files'.rows (relative digest name) = some content ∧
      ∀ path, path ≠ relative digest name → files'.rows path = files.rows path := by
  unfold store at h
  split at h
  · next stored hstored =>
    split_ifs at h with hne
    cases h
    rw [not_not] at hne
    exact ⟨Keeps.refl files, by rw [hstored, hne], fun _ _ => rfl⟩
  · next hnone =>
    cases h
    refine ⟨?_, Table.rows_set_self _ _ _, fun path hne => Table.rows_set_ne _ _ hne⟩
    intro path old hold
    rw [Table.rows_set]
    split_ifs with hpath
    · rw [hpath, hnone] at hold
      cases hold
    · exact hold

/-- It raises only over another content. -/
theorem store_error {name : String} {content : Bytes} {error : Error}
    (h : store files digest name content = .error error) :
    ∃ stored, files.rows (relative digest name) = some stored ∧ stored ≠ content := by
  unfold store at h
  split at h
  · next stored hstored =>
    split_ifs at h with hne
    exact ⟨stored, hstored, hne⟩
  · cases h

/-! ## Requests -/

/-- The request of a call is what the parser says of it. -/
def Parsed (env : Environment) (r : Request) : Prop := request env r.call = .ok r

theorem parsed_of_request {call : Call} (h : request env call = .ok r) : Parsed env r := by
  have hcall : r.call = call := by
    unfold request at h
    obtain ⟨parsed, _, h⟩ := bind_ok.1 h
    cases h
    rfl
  unfold Parsed
  rw [hcall]
  exact h

theorem Parsed.parse (h : Parsed env r) :
    parse_inbound_message env r.call.raw_message = .ok r.parsed ∧
      r.disposition = classify_inbound_security r.parsed := by
  unfold Parsed request at h
  obtain ⟨parsed, hparsed, h⟩ := bind_ok.1 h
  have hsame : parsed = r.parsed := congrArg Request.parsed (Except.ok.inj h)
  have hdisposition := congrArg Request.disposition (Except.ok.inj h)
  dsimp only at hdisposition
  subst hsame
  exact ⟨hparsed, hdisposition.symm⟩

theorem Parsed.content_sha256 (h : Parsed env r) :
    r.parsed.content_sha256 = env.sha256 r.call.raw_message := by
  have hparse := h.parse.1
  unfold parse_inbound_message at hparse
  obtain ⟨_, _, hparse⟩ := bind_ok.1 hparse
  obtain ⟨message, _, hparse⟩ := bind_ok.1 hparse
  exact (congrArg ParsedInboundMessage.content_sha256 (Except.ok.inj hparse)).symm

/-- One content is parsed and classified in one way. -/
theorem Parsed.unique {r' : Request} (h : Parsed env r) (h' : Parsed env r')
    (hraw : r.call.raw_message = r'.call.raw_message) :
    r.parsed = r'.parsed ∧ r.disposition = r'.disposition := by
  have hparse := h.parse.1
  rw [hraw, h'.parse.1] at hparse
  have hparsed : r.parsed = r'.parsed := (Except.ok.inj hparse).symm
  exact ⟨hparsed, by rw [h.parse.2, h'.parse.2, hparsed]⟩

/-! ## The tables -/

/-- What the keys and the foreign keys of the tables say, and that a user has a mail from
outside at most once, and only when the inbound message knows the user. -/
structure WellFormed (db : Db) : Prop where
  ids : ∀ key key' row row', db.inbound.rows key = some row → db.inbound.rows key' = some row' →
    row.id = row'.id → key = key'
  owned : ∀ id user_id, (db.inbound_recipients.rows (id, user_id)).isSome →
    ∃ key row, db.inbound.rows key = some row ∧ row.id = id
  mails : ∀ key mail_id, db.mailOf key = some mail_id → ∃ mail, db.mails.rows mail_id = some mail ∧
    mail.company_id = key.1
  apart : ∀ key key' mail_id, db.mailOf key = some mail_id → db.mailOf key' = some mail_id → key = key'
  recipients : ∀ id row, db.mail_recipients.rows id = some row → (db.mails.rows row.message_id).isSome
  attachments : ∀ id row, db.attachments.rows id = some row → (db.mails.rows row.message_id).isSome
  lone : ∀ key id row user_id, db.mail_recipients.rows id = some row →
    db.mailOf key = some row.message_id → row.recipient_user_id = some user_id →
    db.known key user_id = true
  single : ∀ key id id' row row' user_id, db.mail_recipients.rows id = some row →
    db.mail_recipients.rows id' = some row' → db.mailOf key = some row.message_id →
    db.mailOf key = some row'.message_id → row.recipient_user_id = some user_id →
    row'.recipient_user_id = some user_id → id = id'

theorem returned_id_of_some (h : db.inbound.rows work.key = some row) :
    (returned db work id).id = row.id := by
  simp [returned, h]

theorem returned_id_of_none (h : db.inbound.rows work.key = none) :
    (returned db work id).id = id := by
  simp [returned, h, newInbound]

theorem returned_mail : (returned db work id).mail_message_id = db.mailOf work.key := by
  unfold returned Db.mailOf
  cases db.inbound.rows work.key <;> rfl

/-- The row of one key is written; the others keep their mails. -/
theorem mailOf_set (hset : db'.inbound = db.inbound.set work.key row) :
    db'.mailOf key = if key = work.key then row.mail_message_id else db.mailOf key := by
  unfold Db.mailOf
  rw [hset, Table.rows_set]
  split_ifs with h
  · rfl
  · rfl

/-- No inbound message has this id. -/
def NewInbound (db : Db) (id : String) : Prop :=
  ∀ key ∈ db.inbound.keys, (db.inbound.rows key).map Inbound.id ≠ some id

/-- An inbound message of another key has another id. -/
theorem returned_id_ne (hw : WellFormed db) (hf : NewInbound db id)
    (hrow : db.inbound.rows key = some row) (hne : key ≠ work.key) :
    row.id ≠ (returned db work id).id := by
  intro hid
  cases hown : db.inbound.rows work.key with
  | some own =>
    rw [returned_id_of_some hown] at hid
    exact hne (hw.ids key work.key row own hrow hown hid)
  | none =>
    rw [returned_id_of_none hown] at hid
    refine hf key ((db.inbound.mem_keys key).2 (by simp [hrow])) ?_
    rw [hrow, Option.map_some, hid]

/-- A write that enters a recipient: this user is known from now on, and nobody else. -/
theorem known_set (hw : WellFormed db) (hf : NewInbound db id) {recipient : InboundRecipient}
    (hset : db'.inbound = db.inbound.set work.key row) (hid : row.id = (returned db work id).id)
    (hrecipients : db'.inbound_recipients = db.inbound_recipients.set
      ((returned db work id).id, work.user_id) recipient) :
    db'.known key user_id = true ↔
      (key = work.key ∧ user_id = work.user_id) ∨ db.known key user_id = true := by
  unfold Db.known
  rw [hset, hrecipients]
  by_cases hkey : key = work.key
  · subst hkey
    rw [Table.rows_set_self, Option.any_some, hid, Table.rows_set]
    by_cases huser : user_id = work.user_id
    · simp [huser]
    · simp only [Prod.mk.injEq, huser, ↓reduceIte, and_false, false_or]
      cases hown : db.inbound.rows work.key with
      | some own => rw [Option.any_some, returned_id_of_some hown]
      | none =>
        rw [returned_id_of_none hown]
        simp only [Option.any_none, Bool.false_eq_true, iff_false]
        intro hsome
        obtain ⟨key, row, hrow, hrowid⟩ := hw.owned _ _ hsome
        refine hf key ((db.inbound.mem_keys key).2 (by simp [hrow])) ?_
        rw [hrow, Option.map_some, hrowid]
  · simp only [hkey, false_and, false_or]
    rw [Table.rows_set_ne _ _ hkey]
    cases hrow : db.inbound.rows key with
    | none => simp
    | some other =>
      have hne := returned_id_ne hw hf hrow hkey
      rw [Option.any_some, Option.any_some, Table.rows_set_ne]
      intro heq
      exact hne (Prod.mk.inj heq).1

/-- The keys of a table with the row of one key written. -/
theorem ids_set (hw : WellFormed db) (hf : NewInbound db id)
    (hset : db'.inbound = db.inbound.set work.key row) (hid : row.id = (returned db work id).id)
    {key key' : Key} {a b : Inbound} (ha : db'.inbound.rows key = some a)
    (hb : db'.inbound.rows key' = some b) (heq : a.id = b.id) : key = key' := by
  rw [hset, Table.rows_set] at ha hb
  split_ifs at ha with hkey <;> split_ifs at hb with hkey'
  · rw [hkey, hkey']
  · cases ha
    exact absurd (heq.symm.trans hid) (returned_id_ne hw hf hb hkey')
  · cases hb
    exact absurd (heq.trans hid) (returned_id_ne hw hf ha hkey)
  · exact hw.ids key key' a b ha hb heq

theorem owned_set (hset : db'.inbound = db.inbound.set work.key row)
    (hid : row.id = (returned db work id).id) {key : Key} {a : Inbound}
    (ha : db.inbound.rows key = some a) :
    ∃ key' b, db'.inbound.rows key' = some b ∧ b.id = a.id := by
  rw [hset]
  by_cases hkey : key = work.key
  · subst hkey
    exact ⟨work.key, row, Table.rows_set_self _ _ _, hid.trans (returned_id_of_some ha)⟩
  · exact ⟨key, a, (Table.rows_set_ne _ _ hkey).trans ha, rfl⟩

/-- Each recipient that is entered belongs to an inbound message. -/
theorem owned_entered (hw : WellFormed db) {recipient : InboundRecipient}
    (hset : db'.inbound = db.inbound.set work.key row) (hid : row.id = (returned db work id).id)
    (hrecipients : db'.inbound_recipients = db.inbound_recipients.set
      ((returned db work id).id, work.user_id) recipient) {id' : String}
    (hsome : (db'.inbound_recipients.rows (id', user_id)).isSome) :
    ∃ key row, db'.inbound.rows key = some row ∧ row.id = id' := by
  rw [hrecipients, Table.rows_set] at hsome
  split_ifs at hsome with heq
  · refine ⟨work.key, row, ?_, hid.trans (Prod.mk.inj heq).1.symm⟩
    rw [hset, Table.rows_set_self]
  · obtain ⟨key, old, hold, hid'⟩ := hw.owned id' user_id hsome
    obtain ⟨key', new, hnew, hnewid⟩ := owned_set hset hid hold
    exact ⟨key', new, hnew, hnewid.trans hid'⟩

/-! ## The writes of a commit -/

/-- A recipient that is known: all tables but one say what they said, and that one the same
but for a time. -/
theorem touch_eq (hrow : db.inbound.rows work.key = some row) :
    touch db work id =
      { db with inbound := db.inbound.set work.key { row with updated_at := work.now } } := by
  simp [touch, returned, hrow]

theorem inbound_touch :
    (touch db work id).inbound = db.inbound.set work.key (returned db work id) := rfl

theorem inbound_quarantine : (quarantine db work id).inbound = db.inbound.set work.key
    { returned db work id with processing_status := .quarantined, processed_at := some work.now } := rfl

theorem inbound_deliver : (deliver db work ids message_id).inbound =
    db.inbound.set work.key { returned db work ids.inbound with
      mail_message_id := some message_id
      processing_status := .processed
      processed_at := some work.now } := rfl

theorem row_of_known (h : db.known key user_id = true) : ∃ row, db.inbound.rows key = some row ∧
    (db.inbound_recipients.rows (row.id, user_id)).isSome := by
  unfold Db.known at h
  rwa [Option.any_eq_true] at h

theorem mailOf_touch : (touch db work id).mailOf key = db.mailOf key := by
  rw [mailOf_set inbound_touch, returned_mail]
  split_ifs with h
  · rw [h]
  · rfl

theorem known_touch (h : db.known work.key work.user_id = true) :
    (touch db work id).known key user_id = db.known key user_id := by
  obtain ⟨row, hrow, _⟩ := row_of_known h
  rw [touch_eq hrow]
  unfold Db.known
  dsimp only
  rw [Table.rows_set]
  split_ifs with hkey
  · subst hkey
    rw [hrow]
    rfl
  · rfl

theorem WellFormed.touch (hw : WellFormed db) (hf : NewInbound db id)
    (h : db.known work.key work.user_id = true) : WellFormed (touch db work id) where
  ids _ _ _ _ ha hb heq := ids_set hw hf inbound_touch rfl ha hb heq
  owned id' user_id hsome := by
    obtain ⟨key, row, hrow, hid⟩ := hw.owned id' user_id hsome
    obtain ⟨key', row', hrow', hid'⟩ := owned_set inbound_touch rfl hrow
    exact ⟨key', row', hrow', hid'.trans hid⟩
  mails key mail_id hmail := hw.mails key mail_id (mailOf_touch.symm.trans hmail)
  apart key key' mail_id hmail hmail' := hw.apart key key' mail_id (mailOf_touch.symm.trans hmail)
    (mailOf_touch.symm.trans hmail')
  recipients := hw.recipients
  attachments := hw.attachments
  lone key rid row user_id hrow hmail huser := by
    rw [known_touch h]
    exact hw.lone key rid row user_id hrow (mailOf_touch.symm.trans hmail) huser
  single key rid rid' row row' user_id hrow hrow' hmail hmail' :=
    hw.single key rid rid' row row' user_id hrow hrow' (mailOf_touch.symm.trans hmail)
      (mailOf_touch.symm.trans hmail')

theorem mailOf_quarantine : (quarantine db work id).mailOf key = db.mailOf key := by
  rw [mailOf_set inbound_quarantine]
  dsimp only
  rw [returned_mail]
  split_ifs with h
  · rw [h]
  · rfl

theorem known_quarantine (hw : WellFormed db) (hf : NewInbound db id) :
    (quarantine db work id).known key user_id = true ↔
      (key = work.key ∧ user_id = work.user_id) ∨ db.known key user_id = true :=
  known_set hw hf inbound_quarantine rfl rfl

theorem WellFormed.quarantine (hw : WellFormed db) (hf : NewInbound db id) :
    WellFormed (quarantine db work id) where
  ids _ _ _ _ ha hb heq := ids_set hw hf inbound_quarantine rfl ha hb heq
  owned _ _ hsome := owned_entered hw inbound_quarantine rfl rfl hsome
  mails key mail_id hmail := hw.mails key mail_id (mailOf_quarantine.symm.trans hmail)
  apart key key' mail_id hmail hmail' := hw.apart key key' mail_id
    (mailOf_quarantine.symm.trans hmail) (mailOf_quarantine.symm.trans hmail')
  recipients := hw.recipients
  attachments := hw.attachments
  lone key rid row user_id hrow hmail huser := (known_quarantine hw hf).2
    (Or.inr (hw.lone key rid row user_id hrow (mailOf_quarantine.symm.trans hmail) huser))
  single key rid rid' row row' user_id hrow hrow' hmail hmail' :=
    hw.single key rid rid' row row' user_id hrow hrow' (mailOf_quarantine.symm.trans hmail)
      (mailOf_quarantine.symm.trans hmail')

theorem mailOf_deliver : (deliver db work ids message_id).mailOf key =
    if key = work.key then some message_id else db.mailOf key := by
  rw [mailOf_set inbound_deliver]

theorem known_deliver (hw : WellFormed db) (hf : NewInbound db ids.inbound) :
    (deliver db work ids message_id).known key user_id = true ↔
      (key = work.key ∧ user_id = work.user_id) ∨ db.known key user_id = true :=
  known_set hw hf inbound_deliver rfl rfl

/-- What a delivery to the mail `message_id` finds: the mail is of this company and of no
other content, the user does not have it, and only the content itself has rows on it. -/
structure Open (db : Db) (work : Work) (message_id : String) : Prop where
  mail : ∃ mail, db.mails.rows message_id = some mail ∧ mail.company_id = work.company_id
  own : db.mailOf work.key = none ∨ db.mailOf work.key = some message_id
  apart : ∀ key, db.mailOf key = some message_id → key = work.key
  rows : ∀ id row, db.mail_recipients.rows id = some row → row.message_id = message_id →
    db.mailOf work.key = some message_id
  unknown : db.known work.key work.user_id = false

/-- The row of `mail_recipients` that a delivery inserts. -/
def newRecipient (work : Work) (message_id : String) : MailRecipient where
  message_id := message_id
  recipient_user_id := some work.user_id
  recipient_email := work.request.recipient_email
  recipient_kind := "to"
  received_at := some work.now
  is_spam := decide (work.request.disposition = .spam)
  delivery_source := "external_smtp"

theorem mail_recipients_deliver : (deliver db work ids message_id).mail_recipients =
    db.mail_recipients.set ids.recipient (newRecipient work message_id) := rfl

/-- A row on the mail of a content after a delivery is the new one, or it was there, on the
mail of that content. -/
theorem row_deliver {row : MailRecipient} (ho : Open db work message_id)
    (hrow : (deliver db work ids message_id).mail_recipients.rows id = some row)
    (hmail : (deliver db work ids message_id).mailOf key = some row.message_id) :
    (id = ids.recipient ∧ row = newRecipient work message_id ∧ key = work.key) ∨
      (id ≠ ids.recipient ∧ db.mail_recipients.rows id = some row ∧
        db.mailOf key = some row.message_id) := by
  rw [mail_recipients_deliver, Table.rows_set] at hrow
  rw [mailOf_deliver] at hmail
  split_ifs at hrow with hid
  · cases hrow
    left
    refine ⟨hid, rfl, ?_⟩
    split_ifs at hmail with hkey
    · exact hkey
    · exact ho.apart key hmail
  · right
    refine ⟨hid, hrow, ?_⟩
    split_ifs at hmail with hkey
    · cases hmail
      rw [hkey]
      exact ho.rows id row hrow rfl
    · exact hmail

theorem WellFormed.deliver (hw : WellFormed db) (hf : NewInbound db ids.inbound)
    (ho : Open db work message_id) :
    WellFormed (deliver db work ids message_id) where
  ids _ _ _ _ ha hb heq := ids_set hw hf inbound_deliver rfl ha hb heq
  owned _ _ hsome := owned_entered hw inbound_deliver rfl rfl hsome
  mails key mail_id hmail := by
    rw [mailOf_deliver] at hmail
    split_ifs at hmail with hkey
    · cases hmail
      rw [hkey]
      exact ho.mail
    · exact hw.mails key mail_id hmail
  apart key key' mail_id hmail hmail' := by
    rw [mailOf_deliver] at hmail hmail'
    split_ifs at hmail with hkey <;> split_ifs at hmail' with hkey'
    · rw [hkey, hkey']
    · cases hmail
      rw [hkey, ho.apart key' hmail']
    · cases hmail'
      rw [hkey', ho.apart key hmail]
    · exact hw.apart key key' mail_id hmail hmail'
  recipients id row hrow := by
    rw [mail_recipients_deliver, Table.rows_set] at hrow
    split_ifs at hrow with hid
    · cases hrow
      obtain ⟨mail, hmail, _⟩ := ho.mail
      exact Option.isSome_of_eq_some hmail
    · exact hw.recipients id row hrow
  attachments := hw.attachments
  lone key id row user_id hrow hmail huser := by
    rw [known_deliver hw hf]
    rcases row_deliver ho hrow hmail with ⟨_, rfl, hkey⟩ | ⟨_, hold, hmail⟩
    · exact Or.inl ⟨hkey, (Option.some.inj huser).symm⟩
    · exact Or.inr (hw.lone key id row user_id hold hmail huser)
  single key id id' row row' user_id hrow hrow' hmail hmail' huser huser' := by
    -- An older row of the user would mean that the user was known.
    have hnew : ∀ {other : MailRecipient} {id : String}, key = work.key →
        db.mail_recipients.rows id = some other → db.mailOf key = some other.message_id →
        other.recipient_user_id = some work.user_id → False := by
      rintro other id rfl hold hmail hother
      have hknown := hw.lone work.key id other work.user_id hold hmail hother
      rw [ho.unknown] at hknown
      cases hknown
    rcases row_deliver ho hrow hmail with ⟨hid, rfl, hkey⟩ | ⟨_, hold, hmail⟩ <;>
      rcases row_deliver ho hrow' hmail' with ⟨hid', rfl, hkey'⟩ | ⟨_, hold', hmail'⟩
    · rw [hid, hid']
    · cases huser
      exact (hnew hkey hold' hmail' huser').elim
    · cases huser'
      exact (hnew hkey' hold hmail huser).elim
    · exact hw.single key id id' row row' user_id hold hold' hmail hmail' huser huser'

/-! ## The mail of a content -/

theorem rows_setAttachments_of_notMem {table : Table String Attachment}
    {rows : List (String × InboundAttachment)} {index : Nat} (h : id ∉ rows.map Prod.fst) :
    (setAttachments work message_id rows index table).rows id = table.rows id := by
  induction rows generalizing index table with
  | nil => rfl
  | cons row rows ih =>
    simp only [List.map_cons, List.mem_cons, not_or] at h
    unfold setAttachments
    rw [ih h.2, Table.rows_set_ne _ _ h.1]

theorem rows_setAttachments {table : Table String Attachment}
    {rows : List (String × InboundAttachment)} {index i : Nat} {row : String × InboundAttachment}
    (hnodup : (rows.map Prod.fst).Nodup) (h : rows[i]? = some row) :
    (setAttachments work message_id rows index table).rows row.1 =
      some (newAttachment work message_id (index + i) row.2) := by
  induction rows generalizing index i table with
  | nil => simp at h
  | cons first rows ih =>
    simp only [List.map_cons, List.nodup_cons] at hnodup
    unfold setAttachments
    cases i with
    | zero =>
      simp only [List.getElem?_cons_zero, Option.some.injEq] at h
      subst h
      rw [rows_setAttachments_of_notMem hnodup.1, Table.rows_set_self]
      rfl
    | succ i =>
      rw [List.getElem?_cons_succ] at h
      rw [ih hnodup.2 h]
      congr 2
      omega

/-- A mail has one row for each attachment of its message and no other. -/
def Attached (db : Db) (digest : Digest) (mail_id : String)
    (attachments : List InboundAttachment) : Prop :=
  ∃ ids : List String, ids.Nodup ∧ ids.length = attachments.length ∧
    (∀ index id attachment, ids[index]? = some id → attachments[index]? = some attachment →
      ∃ row, db.attachments.rows id = some row ∧ row.message_id = mail_id ∧
        row.file_name = attachment.file_name ∧ row.content_type = attachment.content_type ∧
        row.size_bytes = attachment.content.length ∧
        row.storage_key = some (relative digest (attachmentName index))) ∧
    ∀ id row, db.attachments.rows id = some row → row.message_id = mail_id → id ∈ ids

theorem map_fst_zip (hf : ids.Fresh db work) :
    (ids.attachments.zip work.request.parsed.attachments).map Prod.fst = ids.attachments :=
  List.map_fst_zip (Nat.le_of_eq hf.length)

theorem attachments_storeMail_of_old (hf : ids.Fresh db work) (hold : id ∉ ids.attachments) :
    (storeMail db work ids).attachments.rows id = db.attachments.rows id := by
  unfold storeMail
  dsimp only
  rw [rows_setAttachments_of_notMem]
  rw [map_fst_zip hf]
  exact hold

theorem attachments_storeMail (hf : ids.Fresh db work) {index : Nat}
    {attachment : InboundAttachment} (hid : ids.attachments[index]? = some id)
    (hattachment : work.request.parsed.attachments[index]? = some attachment) :
    (storeMail db work ids).attachments.rows id =
      some (newAttachment work ids.mail index attachment) := by
  unfold storeMail
  dsimp only
  have hrow : (ids.attachments.zip work.request.parsed.attachments)[index]? = some (id, attachment) :=
    List.getElem?_zip_eq_some.2 ⟨hid, hattachment⟩
  have hnodup := hf.nodup
  rw [← map_fst_zip hf] at hnodup
  rw [rows_setAttachments hnodup hrow, Nat.zero_add]

/-- Each attachment row is a new one, on the new mail, or it was there. -/
theorem attachment_of_storeMail (hf : ids.Fresh db work) {row : Attachment}
    (hrow : (storeMail db work ids).attachments.rows id = some row) :
    (∃ index, ∃ attachment, ids.attachments[index]? = some id ∧
        work.request.parsed.attachments[index]? = some attachment ∧
        row = newAttachment work ids.mail index attachment) ∨
      (id ∉ ids.attachments ∧ db.attachments.rows id = some row) := by
  by_cases hnew : id ∈ ids.attachments
  · left
    obtain ⟨index, hlt, hid⟩ := List.mem_iff_getElem.1 hnew
    have hlt' : index < work.request.parsed.attachments.length := by
      rw [← hf.length]
      exact hlt
    have hid' : ids.attachments[index]? = some id := by rw [List.getElem?_eq_getElem hlt, hid]
    have hattachment := List.getElem?_eq_getElem hlt'
    refine ⟨index, _, hid', hattachment, ?_⟩
    rw [attachments_storeMail hf hid' hattachment] at hrow
    exact (Option.some.inj hrow).symm
  · exact Or.inr ⟨hnew, (attachments_storeMail_of_old hf hnew).symm.trans hrow⟩

theorem mails_storeMail : (storeMail db work ids).mails = db.mails.set ids.mail (newMail work) := rfl

theorem new_mail (hf : ids.Fresh db work) (h : (db.mails.rows message_id).isSome) :
    message_id ≠ ids.mail := by
  rintro rfl
  exact hf.mail ((db.mails.mem_keys _).2 h)

theorem WellFormed.storeMail (hw : WellFormed db) (hf : ids.Fresh db work) :
    WellFormed (storeMail db work ids) where
  ids := hw.ids
  owned := hw.owned
  mails key mail_id hmail := by
    obtain ⟨mail, hrow, hcompany⟩ := hw.mails key mail_id hmail
    refine ⟨mail, ?_, hcompany⟩
    rw [mails_storeMail, Table.rows_set_ne _ _ (new_mail hf (Option.isSome_of_eq_some hrow))]
    exact hrow
  apart := hw.apart
  recipients id row hrow := by
    rw [mails_storeMail, Table.rows_set]
    split_ifs
    · rfl
    · exact hw.recipients id row hrow
  attachments id row hrow := by
    rw [mails_storeMail, Table.rows_set]
    split_ifs with hmail
    · rfl
    · rcases attachment_of_storeMail hf hrow with ⟨_, _, _, _, rfl⟩ | ⟨_, hold⟩
      · exact absurd rfl hmail
      · exact hw.attachments id row hold
  lone := hw.lone
  single := hw.single

/-- The new mail is open to its first recipient. -/
theorem open_storeMail (hw : WellFormed db) (hf : ids.Fresh db work)
    (hnone : db.mailOf work.key = none) (hunknown : db.known work.key work.user_id = false) :
    Open (storeMail db work ids) work ids.mail where
  mail := ⟨newMail work, Table.rows_set_self _ _ _, rfl⟩
  own := Or.inl hnone
  apart key hmail := by
    obtain ⟨mail, hrow, _⟩ := hw.mails key ids.mail hmail
    exact absurd rfl (new_mail hf (Option.isSome_of_eq_some hrow))
  rows id row hrow hmessage := absurd hmessage (new_mail hf (hw.recipients id row hrow))
  unknown := hunknown

/-- The mail of a content is open to a further recipient of the company. -/
theorem open_mailOf (hw : WellFormed db) (hmail : db.mailOf work.key = some message_id)
    (hunknown : db.known work.key work.user_id = false) : Open db work message_id where
  mail := hw.mails work.key message_id hmail
  own := Or.inr hmail
  apart key h := hw.apart key work.key message_id h hmail
  rows _ _ _ _ := hmail
  unknown := hunknown

/-- The new mail has its attachments. -/
theorem attached_storeMail (hw : WellFormed db) (hf : ids.Fresh db work) :
    Attached (storeMail db work ids) work.digest ids.mail work.request.parsed.attachments := by
  refine ⟨ids.attachments, hf.nodup, hf.length, ?_, ?_⟩
  · intro index id attachment hid hattachment
    exact ⟨_, attachments_storeMail hf hid hattachment, rfl, rfl, rfl, rfl, rfl⟩
  · intro id row hrow hmail
    rcases attachment_of_storeMail hf hrow with ⟨index, _, hid, _, _⟩ | ⟨_, hold⟩
    · exact List.mem_of_getElem? hid
    · exact absurd hmail (new_mail hf (hw.attachments id row hold))

/-- Other mails keep theirs. -/
theorem Attached.storeMail {mail_id : String} {attachments : List InboundAttachment}
    (h : Attached db digest mail_id attachments) (hf : ids.Fresh db work)
    (hne : mail_id ≠ ids.mail) : Attached (storeMail db work ids) digest mail_id attachments := by
  obtain ⟨own, hnodup, hlength, hrows, hall⟩ := h
  refine ⟨own, hnodup, hlength, ?_, ?_⟩
  · intro index id attachment hid hattachment
    obtain ⟨row, hrow, hrest⟩ := hrows index id attachment hid hattachment
    refine ⟨row, ?_, hrest⟩
    rw [attachments_storeMail_of_old hf]
    · exact hrow
    · intro hnew
      exact hf.attachments id hnew ((db.attachments.mem_keys id).2 (Option.isSome_of_eq_some hrow))
  · intro id row hrow hmail
    rcases attachment_of_storeMail hf hrow with ⟨_, _, _, _, rfl⟩ | ⟨_, hold⟩
    · exact absurd hmail.symm hne
    · exact hall id row hold hmail

end moaworks.mail_inbound_operations
