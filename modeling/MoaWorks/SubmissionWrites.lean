-- What the commit of a submission writes: the mail of its queue, and one row of
-- the delivery queue or of an inbox.
import MoaWorks.Submissions

namespace moaworks.mail_submission_operations

open Raise (bind_ok require_ok)

variable {work : Work} {ids : NewIds} {db db' : Db} {mail_id provider_id user_id : String}

/-! ## What a commit leaves -/

/-- The mail of the queue after a commit. -/
def Commit.mail (c : Commit) : Option String :=
  (c.after.messages.rows c.work.queue).bind (·.mail_message_id)

/-- The rows of the delivery queue that a commit creates. -/
def Commit.deliveries (c : Commit) : Finset String :=
  c.after.deliveries.keys \ c.before.deliveries.keys

/-- The inbound recipients that a commit creates. -/
def Commit.received (c : Commit) : Finset (String × String) :=
  c.after.inbound_recipients.keys \ c.before.inbound_recipients.keys

/-- A new row is the only new row. -/
theorem keys_set_new {κ ρ : Type} [DecidableEq κ] {table : Table κ ρ} {k : κ} {row : ρ}
    (h : table.rows k = none) : (table.set k row).keys \ table.keys = {k} := by
  have hnew : k ∉ table.keys := by
    rw [table.mem_keys, h]
    simp
  ext j
  rw [Finset.mem_sdiff, Finset.mem_singleton]
  constructor
  · rintro ⟨hmem, hold⟩
    exact (Finset.mem_insert.1 hmem).resolve_right hold
  · rintro rfl
    exact ⟨Finset.mem_insert_self _ _, hnew⟩

/-- The queue has its mail in the tables, with the digests of the submission. -/
structure Stored (db : Db) (work : Work) (mail_id : String) (db' : Db) : Prop where
  others : ∀ key, key ≠ work.queue → db'.messages.rows key = db.messages.rows key
  source : ∃ source, db'.messages.rows work.queue = some source ∧
    source.mail_message_id = some mail_id ∧ source.stored_at.isSome ∧
    source.original_sha256 = work.source.original_sha256 ∧
    source.raw_sha256 = work.source.raw_sha256
  mails : ∀ id mail, db.mails.rows id = some mail → db'.mails.rows id = some mail
  mail : ∃ mail, db'.mails.rows mail_id = some mail ∧ mail.raw_sha256 = work.source.raw_sha256

/-- Each mail of a queue is there, with the digest of the queue. -/
def Backed (db : Db) : Prop := ∀ key source, db.messages.rows key = some source →
  source.stored_at.isSome ∧ ∀ mail_id, source.mail_message_id = some mail_id →
    ∃ mail, db.mails.rows mail_id = some mail ∧ mail.raw_sha256 = source.raw_sha256

/-- The row that the session works with is the row of the queue. -/
def Reads (db : Db) (work : Work) : Prop :=
  if work.inserted then db.messages.rows work.queue = none ∧ work.source = newSource work.submission
  else db.messages.rows work.queue = some work.source

theorem storeMail_ok {id : String} (hbacked : Backed db) (hreads : Reads db work)
    (hdigest : work.source.raw_sha256 = work.submission.digest)
    (h : storeMail db work id = .ok (db', mail_id)) :
    Stored db work mail_id db' ∧ (∃ mails messages, db' = { db with
      mails := mails, messages := messages }) ∧
      (work.source.mail_message_id = none ∨ work.source.mail_message_id = some mail_id) := by
  unfold storeMail at h
  split at h
  · rename_i stored hstored
    cases h
    unfold Reads at hreads
    split_ifs at hreads
    · rw [hreads.2] at hstored
      cases hstored
    · obtain ⟨hat, hmail⟩ := hbacked _ _ hreads
      exact ⟨⟨fun _ _ => rfl, ⟨_, hreads, hstored, hat, rfl, rfl⟩, fun _ _ hrow => hrow,
        hmail _ hstored⟩, ⟨_, _, rfl⟩, Or.inr hstored⟩
  · rename_i hnone
    obtain ⟨_, hnew, h⟩ := bind_ok.1 h
    cases h
    refine ⟨⟨?_, ?_, ?_, ?_⟩, ⟨_, _, rfl⟩, Or.inl hnone⟩
    · intro key hkey
      exact Table.rows_set_ne _ _ hkey
    · exact ⟨_, Table.rows_set_self _ _ _, rfl, rfl, rfl, rfl⟩
    · intro id' mail hrow
      dsimp only
      rw [Table.rows_set_ne]
      · exact hrow
      · rintro rfl
        rw [require_ok.1 hnew] at hrow
        cases hrow
    · exact ⟨_, Table.rows_set_self _ _ _, hdigest.symm⟩

/-- The row of the inbound message of a queue, before its recipient. -/
theorem upsertInbound_ok {id : String} {inbound : Inbound}
    (h : upsertInbound db work id = .ok (db', inbound)) :
    (∃ table, db' = { db with inbound := table }) ∧
      (∀ key, key ≠ work.queue → db'.inbound.rows key = db.inbound.rows key) ∧
      db'.inbound.rows work.queue = some inbound ∧
      (db.inbound.rows work.queue = some inbound ∨
        (db.inbound.rows work.queue = none ∧ inbound.content_sha256 = work.submission.digest ∧
          inbound.mail_message_id = none ∧
          ∀ key row, db.inbound.rows key = some row → row.id ≠ inbound.id)) := by
  unfold upsertInbound at h
  split at h
  · rename_i row hrow
    cases h
    exact ⟨⟨_, rfl⟩, fun _ _ => rfl, hrow, Or.inl hrow⟩
  · rename_i hnone
    obtain ⟨_, hnew, h⟩ := bind_ok.1 h
    cases h
    refine ⟨⟨_, rfl⟩, fun key hkey => Table.rows_set_ne _ _ hkey, Table.rows_set_self _ _ _,
      Or.inr ⟨hnone, rfl, rfl, ?_⟩⟩
    intro key row hrow hid
    exact require_ok.1 hnew ⟨key, (Table.mem_select _ _ _).2 ⟨row, hrow, decide_eq_true hid⟩⟩

/-- The inbound message of the queue has its content, and its mail if it has one. -/
def Inbox (db : Db) (work : Work) (mail_id : Option String) : Prop :=
  ∀ row, db.inbound.rows work.queue = some row → row.content_sha256 = work.submission.digest ∧
    (row.mail_message_id = none ∨ row.mail_message_id = mail_id)

/-- The inbound message of the queue goes on under its id, or has a new one. -/
structure SameInbound (db : Db) (work : Work) (db' : Db) : Prop where
  others : ∀ key, key ≠ work.queue → db'.inbound.rows key = db.inbound.rows key
  kept : ∀ old, db.inbound.rows work.queue = some old →
    ∃ row, db'.inbound.rows work.queue = some row ∧ row.id = old.id
  fresh : ∀ row, db'.inbound.rows work.queue = some row →
    (∃ old, db.inbound.rows work.queue = some old ∧ old.id = row.id) ∨
      ∀ key old, db.inbound.rows key = some old → old.id ≠ row.id

/-- The recipients of the inbound messages, with at most one more for the queue. -/
def OneMore (db : Db) (work : Work) (db' : Db) : Prop :=
  db'.inbound_recipients = db.inbound_recipients ∨
    ∃ row user_id user entry, db'.inbound.rows work.queue = some row ∧
      db.directory.users.rows user_id = some user ∧
      Text.lower user.email = work.submission.recipient ∧
      db'.inbound_recipients = db.inbound_recipients.set (row.id, user_id) entry

/-- The new rows name the mail. -/
structure Names (db : Db) (mail_id : String) (db' : Db) : Prop where
  deliveries : ∀ id row, db'.deliveries.rows id = some row → db.deliveries.rows id = none →
    row.mail_id = mail_id
  recipients : ∀ id row, db'.mail_recipients.rows id = some row → db.mail_recipients.rows id = none →
    row.message_id = mail_id

/-- What a commit does to the tables. -/
structure Enters (db : Db) (work : Work) (mail_id : String) (db' : Db) : Prop where
  directory : db'.directory = db.directory
  stored : Stored db work mail_id db'
  source : work.source.mail_message_id = none ∨ work.source.mail_message_id = some mail_id
  accepted : ∃ row, db'.recipients = db.recipients.set work.key row
  same : SameInbound db work db'
  inbox : Inbox db' work (some mail_id)
  more : OneMore db work db'
  names : Names db mail_id db'
  one : (db'.deliveries.keys \ db.deliveries.keys).card +
    (db'.inbound_recipients.keys \ db.inbound_recipients.keys).card = 1

theorem insertMailRecipient_ok {id : String} {row : MailRecipient}
    (h : insertMailRecipient db id row = .ok db') :
    db' = { db with mail_recipients := db.mail_recipients.set id row } := by
  unfold insertMailRecipient at h
  obtain ⟨_, _, h⟩ := bind_ok.1 h
  cases h
  rfl

theorem accept_ok {disposition : String} (h : accept db work disposition = .ok db') :
    ∃ row, db' = { db with recipients := db.recipients.set work.key row } := by
  unfold accept at h
  obtain ⟨_, _, h⟩ := bind_ok.1 h
  cases h
  exact ⟨_, rfl⟩

theorem queueDelivery_ok (h : queueDelivery db work ids mail_id provider_id = .ok db') :
    ∃ recipient delivery, recipient.message_id = mail_id ∧ delivery.mail_id = mail_id ∧
      db.deliveries.rows ids.delivery = none ∧
      db' = { db with
        mail_recipients := db.mail_recipients.set ids.recipient recipient
        deliveries := db.deliveries.set ids.delivery delivery } := by
  unfold queueDelivery at h
  obtain ⟨db₁, hinsert, h⟩ := bind_ok.1 h
  obtain ⟨_, hnew, h⟩ := bind_ok.1 h
  rw [insertMailRecipient_ok hinsert] at hnew h
  cases h
  exact ⟨_, _, rfl, rfl, require_ok.1 hnew, rfl⟩

/-- A set row is the old one or the new one. -/
theorem rows_set_cases {ρ : Type} {table : Table String ρ} {id id' : String} {new row : ρ}
    (h : (table.set id new).rows id' = some row) (hnone : table.rows id' = none) : row = new := by
  rw [Table.rows_set] at h
  split_ifs at h
  · exact (Option.some.inj h).symm
  · rw [hnone] at h
    cases h

theorem writesOutbound_enters (hbacked : Backed db) (hreads : Reads db work)
    (hdigest : work.source.raw_sha256 = work.submission.digest)
    (hinbox : Inbox db work work.source.mail_message_id)
    (h : writesOutbound db work ids provider_id = .ok db') : ∃ mail_id, Enters db work mail_id db' := by
  unfold writesOutbound at h
  obtain ⟨⟨db₁, mail_id⟩, hmail, h⟩ := bind_ok.1 h
  obtain ⟨db₂, hdelivery, h⟩ := bind_ok.1 h
  obtain ⟨hstored, ⟨mails, messages, rfl⟩, hsource⟩ := storeMail_ok hbacked hreads hdigest hmail
  obtain ⟨recipient, delivery, hrecipient, hnamed, hnew, rfl⟩ := queueDelivery_ok hdelivery
  obtain ⟨row, rfl⟩ := accept_ok h
  refine ⟨mail_id, rfl, ⟨hstored.others, hstored.source, hstored.mails, hstored.mail⟩, hsource,
    ⟨row, rfl⟩,
    ⟨fun _ _ => rfl, fun old hold => ⟨old, hold, rfl⟩, fun row hrow => Or.inl ⟨row, hrow, rfl⟩⟩,
    ?_, Or.inl rfl, ⟨?_, ?_⟩, ?_⟩
  · intro row hrow
    obtain ⟨hcontent, hnone | hsome⟩ := hinbox row hrow
    · exact ⟨hcontent, Or.inl hnone⟩
    · refine ⟨hcontent, hsource.imp ?_ ?_⟩
      · intro hnone
        exact hsome.trans hnone
      · intro hmail
        exact hsome.trans hmail
  · intro id row hrow hnone
    rw [rows_set_cases hrow hnone, hnamed]
  · intro id row hrow hnone
    rw [rows_set_cases hrow hnone, hrecipient]
  · dsimp only at hnew ⊢
    rw [keys_set_new hnew, Finset.card_singleton, Finset.sdiff_self, Finset.card_empty]

/-- What the delivery to an internal user leaves: one recipient more. -/
structure Delivers (db : Db) (work : Work) (mail_id user_id : String) (db' : Db) : Prop where
  tables : ∃ mail_recipients inbound inbound_recipients, db' = { db with
    mail_recipients := mail_recipients
    inbound := inbound
    inbound_recipients := inbound_recipients }
  same : SameInbound db work db'
  inbox : Inbox db' work (some mail_id)
  more : ∃ row entry, db'.inbound.rows work.queue = some row ∧
    db.inbound_recipients.rows (row.id, user_id) = none ∧
    db'.inbound_recipients = db.inbound_recipients.set (row.id, user_id) entry
  named : ∀ id row, db'.mail_recipients.rows id = some row → db.mail_recipients.rows id = none →
    row.message_id = mail_id

/-- The last writes of the delivery, on the row of the inbound message. -/
theorem delivers_set {row next : Inbound} {entry : InboundRecipient} {recipients : Table String MailRecipient}
    {table : Table QueueKey Inbound}
    (hothers : ∀ key, key ≠ work.queue → table.rows key = db.inbound.rows key)
    (hrow : db.inbound.rows work.queue = some row ∨
      (db.inbound.rows work.queue = none ∧
        ∀ key old, db.inbound.rows key = some old → old.id ≠ row.id))
    (hid : next.id = row.id) (hcontent : next.content_sha256 = work.submission.digest)
    (hmail : next.mail_message_id = none ∨ next.mail_message_id = some mail_id)
    (hnew : db.inbound_recipients.rows (row.id, user_id) = none)
    (hnamed : ∀ id row, recipients.rows id = some row → db.mail_recipients.rows id = none →
      row.message_id = mail_id) :
    Delivers db work mail_id user_id { db with
      mail_recipients := recipients
      inbound := table.set work.queue next
      inbound_recipients := db.inbound_recipients.set (row.id, user_id) entry } := by
  refine ⟨⟨_, _, _, rfl⟩, ⟨?_, ?_, ?_⟩, ?_, ⟨next, entry, Table.rows_set_self _ _ _, ?_, ?_⟩, hnamed⟩
  · intro key hkey
    exact (Table.rows_set_ne _ _ hkey).trans (hothers key hkey)
  · intro old hold
    refine ⟨next, Table.rows_set_self _ _ _, ?_⟩
    rcases hrow with hrow | ⟨hnone, _⟩
    · rw [hrow] at hold
      cases hold
      exact hid
    · rw [hnone] at hold
      cases hold
  · intro found hfound
    rw [Table.rows_set_self] at hfound
    cases hfound
    rw [hid]
    exact hrow.imp (fun hrow => ⟨row, hrow, rfl⟩) (fun hrow => hrow.2)
  · intro found hfound
    rw [Table.rows_set_self] at hfound
    cases hfound
    exact ⟨hcontent, hmail⟩
  · rw [hid]
    exact hnew
  · rw [hid]

theorem deliverInbound_ok (hsource : work.source.mail_message_id = none ∨
      work.source.mail_message_id = some mail_id)
    (hinbox : Inbox db work work.source.mail_message_id)
    (hforeign : ∀ id user_id, (db.inbound_recipients.rows (id, user_id)).isSome →
      ∃ key row, db.inbound.rows key = some row ∧ row.id = id)
    (hfresh : ∀ row, db.inbound.rows work.queue = some row →
      db.inbound_recipients.rows (row.id, user_id) = none)
    (h : deliverInbound db work ids mail_id user_id = .ok db') :
    Delivers db work mail_id user_id db' := by
  unfold deliverInbound at h
  obtain ⟨⟨db₁, row⟩, hupsert, h⟩ := bind_ok.1 h
  obtain ⟨⟨table, rfl⟩, hothers, hcurrent, hrow⟩ := upsertInbound_ok hupsert
  dsimp only at h hothers hcurrent
  have hcontent : row.content_sha256 = work.submission.digest ∧
      (row.mail_message_id = none ∨ row.mail_message_id = some mail_id) := by
    rcases hrow with hold | ⟨_, hcontent, hnone, _⟩
    · obtain ⟨hcontent, hmail⟩ := hinbox row hold
      refine ⟨hcontent, ?_⟩
      rcases hmail with hnone | hmail
      · exact Or.inl hnone
      · exact hsource.imp hmail.trans hmail.trans
    · exact ⟨hcontent, Or.inl hnone⟩
  have hnew : db.inbound_recipients.rows (row.id, user_id) = none := by
    rcases hrow with hold | ⟨_, _, _, hids⟩
    · exact hfresh row hold
    · by_contra hsome
      obtain ⟨key, other, hother, hid⟩ := hforeign row.id user_id (Option.isSome_iff_ne_none.2 hsome)
      exact hids key other hother hid
  have hrow' := hrow.imp id (fun hnone => And.intro hnone.1 hnone.2.2.2)
  split at h
  · rename_i entry hentry
    rw [hnew] at hentry
    cases hentry
  · split_ifs at h with hquarantine
    · cases h
      exact delivers_set hothers hrow' rfl hcontent.1 hcontent.2 hnew
        (fun id row hsome hnone => by rw [hnone] at hsome; cases hsome)
    · have hmessage : row.mail_message_id.getD mail_id = mail_id := by
        rcases hcontent.2 with hnone | hsome
        · rw [hnone]
          rfl
        · rw [hsome]
          rfl
      obtain ⟨db₂, hinsert, h⟩ := bind_ok.1 h
      rw [insertMailRecipient_ok hinsert] at h
      cases h
      refine delivers_set hothers hrow' rfl hcontent.1 (Or.inr (congrArg some hmessage)) hnew ?_
      intro id other hsome hnone
      rw [rows_set_cases hsome hnone]
      exact hmessage

theorem writesInternal_enters {user : User} (hbacked : Backed db) (hreads : Reads db work)
    (hdigest : work.source.raw_sha256 = work.submission.digest)
    (hinbox : Inbox db work work.source.mail_message_id)
    (hforeign : ∀ id user_id, (db.inbound_recipients.rows (id, user_id)).isSome →
      ∃ key row, db.inbound.rows key = some row ∧ row.id = id)
    (hfresh : ∀ row, db.inbound.rows work.queue = some row →
      db.inbound_recipients.rows (row.id, user_id) = none)
    (huser : db.directory.users.rows user_id = some user)
    (hemail : Text.lower user.email = work.submission.recipient)
    (h : writesInternal db work ids user_id = .ok db') : ∃ mail_id, Enters db work mail_id db' := by
  unfold writesInternal at h
  obtain ⟨⟨db₁, mail_id⟩, hmail, h⟩ := bind_ok.1 h
  obtain ⟨db₂, hdeliver, haccept⟩ := bind_ok.1 h
  obtain ⟨hstored, ⟨mails, messages, rfl⟩, hsource⟩ := storeMail_ok hbacked hreads hdigest hmail
  have hdelivers : Delivers { db with mails := mails, messages := messages } work mail_id user_id db₂ :=
    deliverInbound_ok hsource hinbox hforeign hfresh hdeliver
  obtain ⟨row, rfl⟩ := accept_ok haccept
  obtain ⟨mail_recipients, inbound, inbound_recipients, rfl⟩ := hdelivers.tables
  obtain ⟨found, entry, hfound, hnew, hset⟩ := hdelivers.more
  refine ⟨mail_id, rfl, ⟨hstored.others, hstored.source, hstored.mails, hstored.mail⟩, hsource,
    ⟨row, rfl⟩,
    ⟨hdelivers.same.others, hdelivers.same.kept, hdelivers.same.fresh⟩, hdelivers.inbox,
    Or.inr ⟨found, user_id, user, entry, hfound, huser, hemail, hset⟩, ⟨?_, hdelivers.named⟩, ?_⟩
  · intro id row hsome hnone
    rw [hnone] at hsome
    cases hsome
  · dsimp only at hnew hset ⊢
    rw [hset, keys_set_new hnew, Finset.card_singleton, Finset.sdiff_self, Finset.card_empty]

end moaworks.mail_submission_operations
