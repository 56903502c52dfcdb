-- Retention covers the trash: what is selected, what is purged and what is spared, and what a run of
-- batches clears.
import MoaWorks.MailboxRetentionLaws

namespace moaworks.mailbox_settings

open mail_messenger_service (AuthUserSummary Db Mail MailStatus Owner Recipient RowId User)

variable {r : Recipient} {m : Mail} {c : Candidate} {user_id : String} {u : User}

/-! ## What retention should do -/

/-- The overview of the user counts the row in the trash. -/
def CountsRecipient (d : Database) (actor : AuthUserSummary) (id : RowId) (r : Recipient) : Prop :=
  ∃ v, rawRecipientView d actor id r = some v ∧ v.mailbox = .trash

def CountsMail (d : Database) (actor : AuthUserSummary) (id : RowId) (m : Mail) : Prop :=
  ∃ v, rawSenderView d actor id m = some v ∧ v.mailbox = .trash

/-- A row is selected to be purged. -/
def Selected (d : Database) (now : Time) (view_type : ViewType) (id : RowId) : Prop :=
  ∃ c ∈ candidates d now, c.view_id = id ∧ c.view_type = view_type ∧ c.action = .purge

/-- All that has been in the trash for 30 days is selected. -/
def Covered (d : Database) : Prop :=
  ∀ now user_id u, d.mail.settings.users.rows user_id = some u →
    (∀ id r, d.mail.recipients.rows id = some r → CountsRecipient d (asActor user_id u) id r →
      olderThan 30 now r.deleted_at = true → Selected d now .recipient id) ∧
    ∀ id m, d.mail.mails.rows id = some m → CountsMail d (asActor user_id u) id m →
      olderThan 30 now m.sender_deleted_at = true → Selected d now .sender id

/-- The rows that a candidate was selected from are as they were. -/
def Unchanged (d d₁ : Database) (c : Candidate) : Prop :=
  match c.view_type with
  | .recipient => d₁.mail.recipients.rows c.view_id = d.mail.recipients.rows c.view_id ∧
      (∀ r, d.mail.recipients.rows c.view_id = some r →
        d₁.mail.mails.rows r.message_id = d.mail.mails.rows r.message_id) ∧
      ∀ user_id, c.user_id = some user_id →
        d₁.mail.settings.users.rows user_id = d.mail.settings.users.rows user_id
  | .sender => d₁.mail.mails.rows c.view_id = d.mail.mails.rows c.view_id

def Purged (d : Database) (c : Candidate) : Prop :=
  match c.view_type with
  | .recipient => ∃ r, d.mail.recipients.rows c.view_id = some r ∧ r.purged_at.isSome = true
  | .sender => ∃ m, d.mail.mails.rows c.view_id = some m ∧ m.sender_purged_at.isSome = true

/-- Whatever is selected to be purged is purged. -/
def Purges (d : Database) : Prop :=
  ∀ now (batch : List Candidate), (∀ c ∈ batch, c ∈ candidates d now) →
    ∀ c ∈ batch, c.action = .purge → ∀ d₁ stamp, now ≤ stamp → Unchanged d d₁ c →
      Purged (_apply_retention_candidates d₁ batch now stamp) c

/-- For how many days a mailbox of the user keeps what stands in it. -/
def retention (d : Database) (actor : AuthUserSummary) : MailboxScope → Option Nat
  | .trash => some 30
  | .spam => some 30
  | .inbox => (policyOf d actor .inbox).bind Policy.retention_days
  | .sent => (policyOf d actor .sent).bind Policy.retention_days
  | .draft => (policyOf d actor .draft).bind Policy.retention_days
  | .scheduled => none
  | .folder folder_id => (policyOf d actor (.folder folder_id)).bind Policy.retention_days

/-- The retention of the mailbox is over for what came there at the time. -/
def Over (d : Database) (actor : AuthUserSummary) (place : MailboxScope) (now : Time)
    (since : Option Time) : Prop :=
  ∃ n, retention d actor place = some n ∧ olderThan n now since = true

/-- Whatever the candidates, a view is trashed or purged only when its retention is over. -/
def Spared (d : Database) : Prop :=
  ∀ batch now stamp, now ≤ stamp → ∀ user_id u, d.mail.settings.users.rows user_id = some u →
    (∀ id r r' place, d.mail.recipients.rows id = some r →
      (_apply_retention_candidates d batch now stamp).mail.recipients.rows id = some r' → r' ≠ r →
      Receives d (asActor user_id u) r place →
      Over d (asActor user_id u) place now (r.deleted_at <|> r.received_at)) ∧
    ∀ id m m' place, d.mail.mails.rows id = some m →
      (_apply_retention_candidates d batch now stamp).mail.mails.rows id = some m' → m' ≠ m →
      Holds (asActor user_id u) m place →
      Over d (asActor user_id u) place now (m.sender_deleted_at <|>
        (if m.status = .sent then m.sent_at else some m.updated_at))

/-- A view in the trash of some user that has been there for 30 days at the time. -/
def Late (d : Database) (now : Time) : Prop :=
  ∃ user_id u, d.mail.settings.users.rows user_id = some u ∧
    ((∃ id r, d.mail.recipients.rows id = some r ∧ CountsRecipient d (asActor user_id u) id r ∧
      olderThan 30 now r.deleted_at = true) ∨
    ∃ id m, d.mail.mails.rows id = some m ∧ CountsMail d (asActor user_id u) id m ∧
      olderThan 30 now m.sender_deleted_at = true)

/-- Enough batches leave nothing in the trash that was there for 30 days when they began. -/
def Clears (d : Database) (limit : Nat) : Prop :=
  ∀ now, ∃ enough, ∀ n d', enough ≤ n → RunBatches limit now n d d' → ¬ Late d' now

/-! ## When it does -/

/-- What own mails stand in the trash of a user are sent ones and drafts. -/
def OrdinaryTrash (d : Database) : Prop :=
  ∀ user_id u id m, d.mail.settings.users.rows user_id = some u → d.mail.mails.rows id = some m →
    CountsMail d (asActor user_id u) id m → m.status = .sent ∨ m.status = .draft

/-- The trashed mails and drafts that retention may select have a sender. -/
def KnownSenders (d : Database) : Prop :=
  ∀ id m, d.mail.mails.rows id = some m → m.sender_deleted_at.isSome = true →
    m.sender_purged_at = none → m.status = .sent ∨ m.status = .draft → saved m = true →
    m.sender_user_id.isSome = true

/-- Users who share a received mail keep it equally long. -/
def OneRetention (d : Database) : Prop :=
  ∀ id r place user_id u user_id' u', d.mail.recipients.rows id = some r →
    r.received_at.isSome = true →
    d.mail.settings.users.rows user_id = some u → d.mail.settings.users.rows user_id' = some u' →
    Receives d (asActor user_id u) r place → Receives d (asActor user_id' u') r place →
    retention d (asActor user_id u) place = retention d (asActor user_id' u') place

/-- The drafts that have a time of sending. -/
def datedDrafts (d : Database) : Finset RowId :=
  d.mail.mails.select (fun _ m => decide (m.status = .draft) && m.sent_at.isSome)

variable {d d' d₁ : Database} {actor : AuthUserSummary} {now stamp : Time} {id : RowId}

/-! ## The candidates -/

theorem trash_ne (f : String) : MailboxScope.trash ≠ .folder f := nofun

theorem countsRecipient_iff : CountsRecipient d actor id r ↔ Receives d actor r .trash := by
  constructor
  · rintro ⟨v, hv, hplace⟩
    exact ((rawRecipientView_iff trash_ne).mp ⟨v, hv, hplace, rfl⟩).1
  · intro h
    have hview : ∃ v, rawRecipientView d actor id r = some v ∧ v.mailbox = .trash ∧
        v.view = (r.message_id, .recipient) := (rawRecipientView_iff trash_ne).mpr ⟨h, rfl⟩
    obtain ⟨v, hv, hplace, -⟩ := hview
    exact ⟨v, hv, hplace⟩

theorem countsMail_iff : CountsMail d actor id m ↔ Holds actor m .trash := by
  constructor
  · rintro ⟨v, hv, hplace⟩
    exact (rawSenderView_iff.mp ⟨v, hv, hplace, rfl⟩).1
  · intro h
    have hview : ∃ v, rawSenderView d actor id m = some v ∧ v.mailbox = .trash ∧
        v.view = (id, .sender) := rawSenderView_iff.mpr ⟨h, rfl⟩
    obtain ⟨v, hv, hplace, -⟩ := hview
    exact ⟨v, hv, hplace⟩

theorem mem_recipientCandidates : c ∈ recipientCandidates d now ↔
    ∃ user_id u id r, d.mail.settings.users.rows user_id = some u ∧
      d.mail.recipients.rows id = some r ∧ recipientCandidate d now user_id u id r = some c := by
  unfold recipientCandidates
  rw [Multiset.mem_bind]
  constructor
  · rintro ⟨⟨user_id, u⟩, huser, hc⟩
    obtain ⟨k, v, hu, heq⟩ := Table.mem_collect.mp huser
    cases heq
    obtain ⟨id, r, hr, hcandidate⟩ := Table.mem_collect.mp hc
    exact ⟨user_id, u, id, r, hu, hr, hcandidate⟩
  · rintro ⟨user_id, u, id, r, hu, hr, hcandidate⟩
    exact ⟨(user_id, u), Table.mem_collect.mpr ⟨user_id, u, hu, rfl⟩,
      Table.mem_collect.mpr ⟨id, r, hr, hcandidate⟩⟩

theorem mem_candidates : c ∈ candidates d now ↔
    (∃ user_id u id r, d.mail.settings.users.rows user_id = some u ∧
      d.mail.recipients.rows id = some r ∧ recipientCandidate d now user_id u id r = some c) ∨
    ∃ id m, d.mail.mails.rows id = some m ∧ senderCandidate d now id m = some c := by
  unfold candidates senderCandidates
  rw [Multiset.mem_add, mem_recipientCandidates, Table.mem_collect]

theorem recipientCandidate_some (h : recipientCandidate d now user_id u id r = some c) :
    received d (asActor user_id u) r = true ∧ r.purged_at = none ∧
      ((r.deleted_at.isSome = true ∧ olderThan 30 now r.deleted_at = true) ∨
        (r.deleted_at.isNone = true ∧ r.is_spam = true ∧ olderThan 30 now r.received_at = true) ∨
        (r.deleted_at.isNone = true ∧ r.is_spam = false ∧ pastPolicy
          (d.policies.rows ⟨u.company_id, user_id, receivedPolicy r⟩) now r.received_at = true)) ∧
      c = ⟨id, .recipient, retentionMailbox r, if r.deleted_at.isSome then .purge else .trash,
        r.deleted_at <|> r.received_at, u.company_id, some user_id⟩ := by
  unfold recipientCandidate at h
  obtain ⟨hc, h⟩ := Option.ite_none_right_eq_some.mp h
  simp only [Bool.and_eq_true, Bool.or_eq_true, Bool.not_eq_true', Option.isNone_iff_eq_none] at hc
  obtain ⟨⟨hreceived, hpurged⟩, (⟨hd, hold⟩ | ⟨⟨hd, hspam⟩, hold⟩) | ⟨⟨hd, hspam⟩, hold⟩⟩ := hc
  · exact ⟨hreceived, hpurged, Or.inl ⟨hd, hold⟩, (Option.some.inj h).symm⟩
  · exact ⟨hreceived, hpurged, Or.inr (Or.inl ⟨by simp [hd], hspam, hold⟩),
      (Option.some.inj h).symm⟩
  · exact ⟨hreceived, hpurged, Or.inr (Or.inr ⟨by simp [hd], hspam, hold⟩),
      (Option.some.inj h).symm⟩

theorem senderCandidate_some (h : senderCandidate d now id m = some c) :
    m.sender_purged_at = none ∧ (m.status = .sent ∨ m.status = .draft) ∧ saved m = true ∧
      ((m.sender_deleted_at.isSome = true ∧ olderThan 30 now m.sender_deleted_at = true) ∨
        (m.sender_deleted_at.isNone = true ∧
          pastPolicy (ownPolicy d m) now (m.sent_at <|> some m.updated_at) = true)) ∧
      ∃ mailbox, senderMailbox m = some mailbox ∧ c = ⟨id, .sender, mailbox,
        if m.sender_deleted_at.isSome then .purge else .trash,
        m.sender_deleted_at <|> (if m.status = .sent then m.sent_at else some m.updated_at),
        m.company_id, m.sender_user_id⟩ := by
  unfold senderCandidate at h
  obtain ⟨hc, h⟩ := Option.ite_none_right_eq_some.mp h
  obtain ⟨mailbox, hmailbox, heq⟩ := Option.map_eq_some_iff.mp h
  simp only [Bool.and_eq_true, Bool.or_eq_true, decide_eq_true_eq] at hc
  obtain ⟨⟨⟨hpurged, hstatus⟩, hsaved⟩, hold⟩ := hc
  exact ⟨Option.isNone_iff_eq_none.mp hpurged, hstatus, hsaved, hold, mailbox, hmailbox, heq.symm⟩

theorem selected_recipient (hu : d.mail.settings.users.rows user_id = some u)
    (hr : d.mail.recipients.rows id = some r) (h : Receives d (asActor user_id u) r .trash)
    (hold : olderThan 30 now r.deleted_at = true) : Selected d now .recipient id := by
  obtain ⟨hreceived, hpurged, hplace⟩ := h
  have hdeleted := placeOf_trash.mp hplace
  refine ⟨_, mem_candidates.mpr (Or.inl ⟨user_id, u, id, r, hu, hr, if_pos ?_⟩), rfl, rfl,
    if_pos hdeleted⟩
  simp [hreceived, hpurged, hdeleted, hold]

theorem selected_mail (hm : d.mail.mails.rows id = some m) (hpurged : m.sender_purged_at = none)
    (hstatus : m.status = .sent ∨ m.status = .draft) (hsaved : saved m = true)
    (hdeleted : m.sender_deleted_at.isSome = true)
    (hold : olderThan 30 now m.sender_deleted_at = true) : Selected d now .sender id := by
  have hcondition : (m.sender_purged_at.isNone &&
      (decide (m.status = .sent) || decide (m.status = .draft)) && saved m &&
      ((m.sender_deleted_at.isSome && olderThan 30 now m.sender_deleted_at) ||
        (m.sender_deleted_at.isNone &&
          pastPolicy (ownPolicy d m) now (m.sent_at <|> some m.updated_at)))) = true := by
    simp [hpurged, hstatus, hsaved, hdeleted, hold]
  have hcandidate : senderCandidate d now id m = some ⟨id, .sender, .trash, .purge,
      m.sender_deleted_at <|> (if m.status = .sent then m.sent_at else some m.updated_at),
      m.company_id, m.sender_user_id⟩ := by
    unfold senderCandidate
    rw [if_pos hcondition, senderMailbox_trash.mpr hdeleted, if_pos hdeleted]
    rfl
  exact ⟨_, mem_candidates.mpr (Or.inr ⟨id, m, hm, hcandidate⟩), rfl, rfl, rfl⟩

/-! ## Coverage -/

theorem selected_sender {t : Time} (h : Selected d t .sender id) :
    ∃ m, d.mail.mails.rows id = some m ∧ (m.status = .sent ∨ m.status = .draft) := by
  obtain ⟨c, hc, rfl, htype, -⟩ := h
  rcases mem_candidates.mp hc with ⟨user_id, u, id, r, -, -, hcandidate⟩ | ⟨id, m, hm, hcandidate⟩
  · obtain ⟨-, -, -, rfl⟩ := recipientCandidate_some hcandidate
    cases htype
  · obtain ⟨-, hstatus, -, -, mailbox, -, rfl⟩ := senderCandidate_some hcandidate
    exact ⟨m, hm, hstatus⟩

theorem covered_iff : Covered d ↔ OrdinaryTrash d := by
  constructor
  · intro h user_id u id m hu hm hcounts
    obtain ⟨t, ht⟩ := Option.isSome_iff_exists.mp
      (senderMailbox_trash.mp (countsMail_iff.mp hcounts).2.2.2)
    have hold : olderThan 30 (t + days 30 + 1) m.sender_deleted_at = true :=
      olderThan_iff.mpr ⟨t, ht, Nat.lt_succ_self _⟩
    obtain ⟨m', hm', hstatus⟩ := selected_sender ((h _ user_id u hu).2 id m hm hcounts hold)
    cases hm.symm.trans hm'
    exact hstatus
  · intro h now user_id u hu
    constructor
    · intro id r hr hcounts hold
      exact selected_recipient hu hr (countsRecipient_iff.mp hcounts) hold
    · intro id m hm hcounts hold
      obtain ⟨-, hpurged, hsaved, hplace⟩ := countsMail_iff.mp hcounts
      exact selected_mail hm hpurged (h user_id u id m hu hm hcounts) hsaved
        (senderMailbox_trash.mp hplace) hold

/-! ## Purging -/

theorem received_congr (h : d₁.mail.mails.rows r.message_id = d.mail.mails.rows r.message_id) :
    received d₁ actor r = received d actor r := by
  unfold received mail_messenger_service.Db.joined
  rw [h]

theorem receivedIn_of {key : GroupKey} (hu : d.mail.settings.users.rows user_id = some u)
    (hkey : key.user_id = some user_id) (hcompany : key.company_id = u.company_id)
    (h : received d (asActor user_id u) r = true) : receivedIn d key r = true := by
  simp [receivedIn, hkey, hu, hcompany, h]

theorem writtenIn_of {key : GroupKey} (hkey : key.user_id = m.sender_user_id)
    (hcompany : key.company_id = m.company_id) (h : m.sender_user_id.isSome = true) :
    writtenIn key m = true := by
  simp [writtenIn, hkey, hcompany, h]

/-- A row in the trash that changes is purged. -/
theorem RecipientStep.purged {r' : Recipient} (h : RecipientStep d now stamp r r') (hne : r' ≠ r)
    (hdeleted : r.deleted_at.isSome = true) : r'.purged_at.isSome = true := by
  rcases h with h | ⟨key, -, rfl⟩ | ⟨key, hkey, -⟩
  · exact absurd h hne
  · rfl
  · simp [trashesSpam, trashesReceived, mail_messenger_service.Recipient.live,
      Option.isNone_eq_false_iff.mpr hdeleted] at hkey

theorem MailStep.purged {m' : Mail} (h : MailStep d now stamp m m') (hne : m' ≠ m)
    (hdeleted : m.sender_deleted_at.isSome = true) : m'.sender_purged_at.isSome = true := by
  rcases h with h | ⟨key, -, rfl⟩ | ⟨key, hkey, -⟩
  · exact absurd h hne
  · rfl
  · simp [trashesMail, mail_messenger_service.Mail.live,
      Option.isNone_eq_false_iff.mpr hdeleted] at hkey

/-- A row without a sender is left alone. -/
theorem MailStep.sender {m' : Mail} (h : MailStep d now stamp m m') (hne : m' ≠ m) :
    m.sender_user_id.isSome = true := by
  rcases h with h | ⟨key, hkey, -⟩ | ⟨key, hkey, -⟩
  · exact absurd h hne
  · simp only [purgesMail, writtenIn, Bool.and_eq_true] at hkey
    exact hkey.1.1.1.1.1.1.2
  · simp only [trashesMail, writtenIn, Bool.and_eq_true] at hkey
    exact hkey.1.1.1.1.1.2

/-- The guard of a received mail that is to be purged. -/
theorem purge_recipient_guard (hcandidate : recipientCandidate d now user_id u id r = some c)
    (haction : c.action = .purge)
    (hmail : d₁.mail.mails.rows r.message_id = d.mail.mails.rows r.message_id)
    (hu : d₁.mail.settings.users.rows user_id = some u) :
    recipientGuard d₁ now c.key r = true ∧ r.deleted_at.isSome = true := by
  obtain ⟨hreceived, hpurged, hold, rfl⟩ := recipientCandidate_some hcandidate
  have hdeleted : r.deleted_at.isSome = true := by
    by_contra hlive
    simp [hlive] at haction
  have hold : olderThan 30 now r.deleted_at = true := by
    rcases hold with ⟨-, hold⟩ | ⟨hlive, -⟩ | ⟨hlive, -⟩
    · exact hold
    · simp [Option.isNone_iff_eq_none.mp hlive] at hdeleted
    · simp [Option.isNone_iff_eq_none.mp hlive] at hdeleted
  refine ⟨?_, hdeleted⟩
  unfold recipientGuard Candidate.key
  dsimp only at haction ⊢
  rw [haction]
  have hin : receivedIn d₁ ⟨.recipient, .purge, retentionMailbox r, u.company_id, some user_id⟩ r =
      true := receivedIn_of hu rfl rfl ((received_congr hmail).trans hreceived)
  simp [purgesRecipient, hin, hdeleted, hold, hpurged]

theorem purge_mail_guard (hcandidate : senderCandidate d now id m = some c)
    (haction : c.action = .purge) (hsender : m.sender_user_id.isSome = true) :
    mailGuard d₁ now c.key m = true := by
  obtain ⟨hpurged, hstatus, hsaved, hold, mailbox, -, rfl⟩ := senderCandidate_some hcandidate
  have hdeleted : m.sender_deleted_at.isSome = true := by
    by_contra hlive
    simp [hlive] at haction
  have hold : olderThan 30 now m.sender_deleted_at = true := by
    rcases hold with ⟨-, hold⟩ | ⟨hlive, -⟩
    · exact hold
    · simp [Option.isNone_iff_eq_none.mp hlive] at hdeleted
  unfold mailGuard Candidate.key
  dsimp only at haction ⊢
  rw [haction]
  have hin : writtenIn ⟨.sender, .purge, mailbox, m.company_id, m.sender_user_id⟩ m = true :=
    writtenIn_of rfl rfl hsender
  simp [purgesMail, hin, hstatus, hsaved, hdeleted, hold, hpurged]

theorem purges_iff : Purges d ↔ KnownSenders d := by
  constructor
  · intro h id m hm hdeleted hpurged hstatus hsaved
    obtain ⟨t, ht⟩ := Option.isSome_iff_exists.mp hdeleted
    have hold : olderThan 30 (t + days 30 + 1) m.sender_deleted_at = true :=
      olderThan_iff.mpr ⟨t, ht, Nat.lt_succ_self _⟩
    obtain ⟨c, hc, hid, htype, haction⟩ :=
      selected_mail hm hpurged hstatus hsaved hdeleted hold
    have hunchanged : Unchanged d d c := by
      unfold Unchanged
      rw [htype]
    have hdone := h _ [c] (by simpa using hc) c (List.mem_singleton_self c) haction d _
      (Nat.le_refl _) hunchanged
    unfold Purged at hdone
    rw [htype] at hdone
    obtain ⟨m', hm', hpurged'⟩ := hdone
    rw [hid] at hm'
    obtain ⟨f, hf, hstep⟩ := (effect_apply (Nat.le_refl _) d [c]).mails id
    rw [hf, hm] at hm'
    cases hm'
    refine (hstep m hm).sender (fun heq => ?_)
    rw [heq, hpurged] at hpurged'
    cases hpurged'
  · intro h now batch hbatch c hc haction d₁ stamp hstamp hunchanged
    unfold Unchanged at hunchanged
    unfold Purged
    rcases mem_candidates.mp (hbatch c hc) with
      ⟨user_id, u, id, r, hu, hr, hcandidate⟩ | ⟨id, m, hm, hcandidate⟩
    · obtain ⟨-, -, -, heq⟩ := recipientCandidate_some hcandidate
      have htype : c.view_type = .recipient := by rw [heq]
      have hid : c.view_id = id := by rw [heq]
      have huser : c.user_id = some user_id := by rw [heq]
      rw [htype] at hunchanged ⊢
      obtain ⟨hrow, hmail, husers⟩ := hunchanged
      rw [hid, hr] at hrow
      rw [hid] at hmail
      obtain ⟨hguard, hdeleted⟩ := purge_recipient_guard hcandidate haction (hmail r hr)
        ((husers user_id huser).trans hu)
      obtain ⟨r', hr', hstep, hne⟩ :=
        recipient_changes hstamp hc htype (hid ▸ hrow) hguard
      exact ⟨r', hr', hstep.purged hne hdeleted⟩
    · obtain ⟨hpurged, hstatus, hsaved, -, mailbox, -, heq⟩ := senderCandidate_some hcandidate
      have htype : c.view_type = .sender := by rw [heq]
      have hid : c.view_id = id := by rw [heq]
      have hdeleted : m.sender_deleted_at.isSome = true := by
        by_contra hlive
        simp [heq, hlive] at haction
      rw [htype] at hunchanged ⊢
      dsimp only at hunchanged ⊢
      rw [hid, hm] at hunchanged
      have hguard : mailGuard d₁ now c.key m = true :=
        purge_mail_guard hcandidate haction (h id m hm hdeleted hpurged hstatus hsaved)
      obtain ⟨m', hm', hstep, hne⟩ := mail_changes hstamp hc htype (hid ▸ hunchanged) hguard
      exact ⟨m', hm', hstep.purged hne hdeleted⟩

/-! ## Sparing -/

theorem pastPolicy_iff {p : Option Policy} {t : Option Time} : pastPolicy p now t = true ↔
    ∃ n, p.bind Policy.retention_days = some n ∧ olderThan n now t = true := by
  unfold pastPolicy
  rw [Option.any_eq_true]

/-- The user of a group. -/
theorem receivedIn_some {key : GroupKey} (h : receivedIn d key r = true) :
    ∃ user_id u, key.user_id = some user_id ∧ d.mail.settings.users.rows user_id = some u ∧
      u.company_id = key.company_id ∧ received d (asActor user_id u) r = true := by
  unfold receivedIn at h
  obtain ⟨user_id, huser, h⟩ := (Option.any_eq_true _ _).mp h
  obtain ⟨u, hu, h⟩ := (Option.any_eq_true _ _).mp h
  obtain ⟨hcompany, hreceived⟩ := Bool.and_eq_true_iff.mp h
  exact ⟨user_id, u, huser, hu, of_decide_eq_true hcompany, hreceived⟩

/-- A received mail that changes has outlived the retention of some user, in the mailbox where it
stands for each of them. -/
theorem RecipientStep.over {r' : Recipient} (h : RecipientStep d now stamp r r') (hne : r' ≠ r) :
    ∃ user_id u, d.mail.settings.users.rows user_id = some u ∧
      Receives d (asActor user_id u) r (placeOf r) ∧
      Over d (asActor user_id u) (placeOf r) now (r.deleted_at <|> r.received_at) := by
  rcases h with h | ⟨key, hkey, -⟩ | ⟨key, hkey | hkey, -⟩
  · exact absurd h hne
  · simp only [purgesRecipient, Bool.and_eq_true, Option.isNone_iff_eq_none] at hkey
    obtain ⟨⟨⟨hin, hdeleted⟩, hold⟩, hpurged⟩ := hkey
    obtain ⟨user_id, u, -, hu, -, hreceived⟩ := receivedIn_some hin
    obtain ⟨t, ht⟩ := Option.isSome_iff_exists.mp hdeleted
    refine ⟨user_id, u, hu, ⟨hreceived, hpurged, rfl⟩, 30, ?_, ?_⟩
    · rw [placeOf_trash.mpr hdeleted]
      rfl
    · rw [ht] at hold ⊢
      exact hold
  · simp only [trashesSpam, mail_messenger_service.Recipient.live, Bool.and_eq_true,
      Option.isNone_iff_eq_none] at hkey
    obtain ⟨⟨⟨hin, hdeleted, hpurged⟩, hspam⟩, hold⟩ := hkey
    obtain ⟨user_id, u, -, hu, -, hreceived⟩ := receivedIn_some hin
    refine ⟨user_id, u, hu, ⟨hreceived, hpurged, rfl⟩, 30, ?_, ?_⟩
    · rw [placeOf_spam.mpr ⟨by simp [hdeleted], hspam⟩]
      rfl
    · rw [hdeleted]
      exact hold
  · simp only [trashesReceived, mail_messenger_service.Recipient.live, Bool.and_eq_true,
      Option.isNone_iff_eq_none, Bool.not_eq_true', decide_eq_true_eq] at hkey
    obtain ⟨⟨⟨⟨hin, hdeleted, hpurged⟩, hspam⟩, hfolder⟩, hold⟩ := hkey
    obtain ⟨user_id, u, huser, hu, hcompany, hreceived⟩ := receivedIn_some hin
    obtain ⟨n, hn, hold⟩ := pastPolicy_iff.mp hold
    refine ⟨user_id, u, hu, ⟨hreceived, hpurged, rfl⟩, n, ?_, ?_⟩
    · unfold keyPolicy at hn
      unfold keyFolder at hfolder
      rw [huser, Option.bind_some, ← hcompany] at hn
      rcases hmailbox : key.mailbox with _ | _ | _ | _ | _ | _ | f
      case folder =>
        rw [hmailbox] at hn hfolder
        rw [placeOf_folder.mpr ⟨by simp [hdeleted], hspam, hfolder⟩]
        exact hn
      all_goals
        rw [hmailbox] at hn hfolder
        rw [placeOf_inbox.mpr ⟨by simp [hdeleted], hspam, hfolder⟩]
        exact hn
    · rw [hdeleted]
      exact hold

/-- An own mail that changes has outlived the retention of its mailbox. -/
theorem MailStep.over {m' : Mail} {place : MailboxScope} (h : MailStep d now stamp m m')
    (hne : m' ≠ m) (hholds : Holds (asActor user_id u) m place) :
    Over d (asActor user_id u) place now (m.sender_deleted_at <|>
      (if m.status = .sent then m.sent_at else some m.updated_at)) := by
  obtain ⟨hwritten, -, -, hplace⟩ := hholds
  rcases h with h | ⟨key, hkey, -⟩ | ⟨key, hkey, -⟩
  · exact absurd h hne
  · simp only [purgesMail, Bool.and_eq_true] at hkey
    obtain ⟨⟨⟨-, hdeleted⟩, hold⟩, -⟩ := hkey
    obtain ⟨t, ht⟩ := Option.isSome_iff_exists.mp hdeleted
    cases hplace.symm.trans (senderMailbox_trash.mpr hdeleted)
    rw [ht] at hold ⊢
    exact ⟨30, rfl, hold⟩
  · simp only [trashesMail, mail_messenger_service.Mail.live, Bool.and_eq_true, decide_eq_true_eq,
      Option.isNone_iff_eq_none] at hkey
    obtain ⟨⟨⟨⟨-, hstatus⟩, -⟩, hdeleted, -⟩, hold⟩ := hkey
    obtain ⟨n, hn, hold⟩ := pastPolicy_iff.mp hold
    have hmailbox : statusMailbox m.status = some place := by
      rw [← hplace]
      unfold senderMailbox
      simp [hdeleted]
    obtain ⟨hcompany, hsender⟩ := Bool.and_eq_true_iff.mp hwritten
    have hcompany : m.company_id = u.company_id := of_decide_eq_true hcompany
    have hsender : m.sender_user_id = some user_id := of_decide_eq_true hsender
    refine ⟨n, ?_, ?_⟩
    · unfold ownPolicy at hn
      rw [hsender, hcompany, Option.bind_some] at hn
      rcases statusMailbox_iff.mp hmailbox with ⟨hst, rfl⟩ | ⟨hst, rfl⟩ | ⟨hst, rfl⟩
      · rw [hst] at hn
        exact hn
      · rw [hst] at hn
        exact hn
      · rw [hst] at hn
        cases hn
    · rw [hdeleted]
      exact hold

/-- Of two retentions that differ, one is over first. -/
theorem shorter_retention {a b : Option Nat} (h : a ≠ b) :
    (∃ n, a = some n ∧ ∀ k, b = some k → n < k) ∨ ∃ n, b = some n ∧ ∀ k, a = some k → n < k := by
  cases a with
  | none =>
    cases b with
    | none => exact absurd rfl h
    | some k => exact Or.inr ⟨k, rfl, nofun⟩
  | some n =>
    cases b with
    | none => exact Or.inl ⟨n, rfl, nofun⟩
    | some k =>
      rcases Nat.lt_trichotomy n k with hlt | heq | hgt
      · exact Or.inl ⟨n, rfl, fun j hj => by cases hj; exact hlt⟩
      · exact absurd (congrArg some heq) h
      · exact Or.inr ⟨k, rfl, fun j hj => by cases hj; exact hgt⟩

/-- At the end of a retention, one candidate trashes the received mail. -/
theorem trashed_when_over {n : Nat} {t : Time} (hu : d.mail.settings.users.rows user_id = some u)
    (hr : d.mail.recipients.rows id = some r)
    (hreceives : Receives d (asActor user_id u) r (placeOf r))
    (hplace : placeOf r = .inbox ∨ ∃ f, placeOf r = .folder f) (ht : r.received_at = some t)
    (hn : retention d (asActor user_id u) (placeOf r) = some n) (hlt : t + days n < now) :
    ∃ batch r', (_apply_retention_candidates d batch now now).mail.recipients.rows id = some r' ∧
      r' ≠ r := by
  have hold : olderThan n now r.received_at = true := olderThan_iff.mpr ⟨t, ht, hlt⟩
  have hlive : r.deleted_at.isNone = true ∧ r.is_spam = false ∧ placeOf r ≠ .spam ∧
      r.folder_id = keyFolder ⟨.recipient, .trash, placeOf r, u.company_id, some user_id⟩ ∧
      pastPolicy (keyPolicy d ⟨.recipient, .trash, placeOf r, u.company_id, some user_id⟩) now
        r.received_at = true := by
    rcases hplace with hp | ⟨f, hp⟩
    · obtain ⟨hdeleted, hspam, hfolder⟩ := placeOf_inbox.mp hp
      rw [hp] at hn ⊢
      exact ⟨hdeleted, hspam, nofun, hfolder, pastPolicy_iff.mpr ⟨n, hn, hold⟩⟩
    · obtain ⟨hdeleted, hspam, hfolder⟩ := placeOf_folder.mp hp
      rw [hp] at hn ⊢
      exact ⟨hdeleted, hspam, nofun, hfolder, pastPolicy_iff.mpr ⟨n, hn, hold⟩⟩
  obtain ⟨hdeleted, hspam, hnot, hfolder, hpast⟩ := hlive
  have hin : receivedIn d ⟨.recipient, .trash, placeOf r, u.company_id, some user_id⟩ r = true :=
    receivedIn_of hu rfl rfl hreceives.1
  have hguard : recipientGuard d now ⟨.recipient, .trash, placeOf r, u.company_id, some user_id⟩ r =
      true := by
    simp only [recipientGuard, if_neg hnot, trashesReceived, hin,
      mail_messenger_service.Recipient.live, hdeleted, hreceives.2.1, hspam, hfolder, hpast,
      Option.isNone_none, decide_true, Bool.not_false, Bool.and_true]
  obtain ⟨r', hr', -, hne⟩ := recipient_changes (Nat.le_refl now)
    (List.mem_singleton_self (⟨id, .recipient, placeOf r, .trash, none, u.company_id,
      some user_id⟩ : Candidate)) rfl hr hguard
  exact ⟨_, r', hr', hne⟩

/-- Only in the inbox and in folders do retentions differ. -/
theorem place_of_differing {actor' : AuthUserSummary}
    (h : retention d actor (placeOf r) ≠ retention d actor' (placeOf r)) :
    placeOf r = .inbox ∨ ∃ f, placeOf r = .folder f := by
  rcases hp : placeOf r with _ | _ | _ | _ | _ | _ | f
  case inbox => exact Or.inl rfl
  case folder => exact Or.inr ⟨f, rfl⟩
  case sent => exact absurd (placeOf_system (Or.inl (Or.inl hp))) id
  case draft => exact absurd (placeOf_system (Or.inl (Or.inr hp))) id
  case scheduled => exact absurd (placeOf_system (Or.inr hp)) id
  all_goals
    rw [hp] at h
    exact absurd rfl h

/-- Users with different retentions lose a mail at the end of the shorter one. -/
theorem not_spared {user_id' : String} {u' : User} {n : Nat} (h : Spared d)
    (hr : d.mail.recipients.rows id = some r) (hreceived : r.received_at.isSome = true)
    (hu : d.mail.settings.users.rows user_id = some u)
    (hu' : d.mail.settings.users.rows user_id' = some u')
    (hreceives : Receives d (asActor user_id u) r (placeOf r))
    (hreceives' : Receives d (asActor user_id' u') r (placeOf r))
    (hplace : placeOf r = .inbox ∨ ∃ f, placeOf r = .folder f)
    (hn : retention d (asActor user_id u) (placeOf r) = some n)
    (hlonger : ∀ k, retention d (asActor user_id' u') (placeOf r) = some k → n < k) : False := by
  obtain ⟨t, ht⟩ := Option.isSome_iff_exists.mp hreceived
  obtain ⟨batch, r', hr', hne⟩ :=
    trashed_when_over hu hr hreceives hplace ht hn (Nat.lt_succ_self _)
  obtain ⟨k, hk, hold⟩ := (h batch _ _ (Nat.le_refl _) user_id' u' hu').1 id r r' _ hr hr' hne
    hreceives'
  have hlive : r.deleted_at = none := by
    rcases hplace with hp | ⟨f, hp⟩
    · exact Option.isNone_iff_eq_none.mp (placeOf_inbox.mp hp).1
    · exact Option.isNone_iff_eq_none.mp (placeOf_folder.mp hp).1
  rw [hlive] at hold
  obtain ⟨s, hs, hlt⟩ := olderThan_iff.mp hold
  cases ht.symm.trans hs
  have hlonger := days_lt (hlonger k hk)
  exact absurd (Nat.lt_of_lt_of_le (Nat.add_lt_add_left hlonger t) (Nat.le_of_lt_succ hlt))
    (Nat.lt_irrefl _)

theorem spared_iff : Spared d ↔ OneRetention d := by
  constructor
  · intro h id r place user_id u user_id' u' hr hreceived hu hu' hreceives hreceives'
    obtain rfl : placeOf r = place := hreceives.2.2
    by_contra hne
    have hplace := place_of_differing hne
    rcases shorter_retention hne with ⟨n, hn, hlonger⟩ | ⟨n, hn, hlonger⟩
    · exact not_spared h hr hreceived hu hu' hreceives hreceives' hplace hn hlonger
    · exact not_spared h hr hreceived hu' hu hreceives' hreceives hplace hn hlonger
  · intro h batch now stamp hstamp user_id u hu
    have heffect := effect_apply hstamp d batch
    constructor
    · intro id r r' place hr hr' hne hreceives
      obtain rfl : placeOf r = place := hreceives.2.2
      obtain ⟨f, hf, hstep⟩ := heffect.recipients id
      rw [hf, hr] at hr'
      cases hr'
      obtain ⟨user_id', u', hu', hreceives', n, hn, hold⟩ := (hstep r hr).over hne
      refine ⟨n, ?_, hold⟩
      rcases hdeleted : r.deleted_at with _ | t
      · obtain ⟨s, hs, -⟩ := olderThan_iff.mp hold
        have hreceived : r.received_at.isSome = true := by
          rw [hdeleted] at hs
          exact Option.isSome_iff_exists.mpr ⟨s, hs⟩
        rw [h id r _ user_id u user_id' u' hr hreceived hu hu' hreceives hreceives']
        exact hn
      · rw [placeOf_trash.mpr (by rw [hdeleted]; rfl)] at hn ⊢
        exact hn
    · intro id m m' place hm hm' hne hholds
      obtain ⟨f, hf, hstep⟩ := heffect.mails id
      rw [hf, hm] at hm'
      cases hm'
      exact (hstep m hm).over hne hholds

end moaworks.mailbox_settings
