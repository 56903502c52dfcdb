-- The laws of the mailboxes: the overview, the folders and the locks agree on where a view stands,
-- and emptying a mailbox moves the views of that mailbox and no others.
import MoaWorks.MailAccess
import MoaWorks.MailboxSettings

namespace moaworks.mailbox_settings

open Grouping (groups groups_congr card_groups_eq_zero)
open mail_messenger_service (AuthUserSummary Db Mail MailStatus Owner Recipient RowId)

variable {d : Database} {actor : AuthUserSummary}
variable {r : Recipient} {f : String} {m : Mail} {v : LockedView} {id : RowId}

/-! ## Where a view stands -/

/-- The mailbox of a received mail that is not purged. -/
def placeOf (r : Recipient) : MailboxScope :=
  if r.deleted_at.isSome then .trash else if r.is_spam then .spam else
    match r.folder_id with
    | none => .inbox
    | some folder_id => .folder folder_id

/-- A received mail of the user stands in the mailbox. -/
def Receives (d : Database) (actor : AuthUserSummary) (r : Recipient) (s : MailboxScope) : Prop :=
  received d actor r = true ∧ r.purged_at = none ∧ placeOf r = s

/-- An own mail of the user stands in the mailbox. -/
def Holds (actor : AuthUserSummary) (m : Mail) (s : MailboxScope) : Prop :=
  written actor m = true ∧ m.sender_purged_at = none ∧ saved m = true ∧ senderMailbox m = some s

/-- The views of a mailbox. -/
def Stands (d : Database) (actor : AuthUserSummary) (s : MailboxScope) (v : LockedView) : Prop :=
  (∃ id r, d.mail.recipients.rows id = some r ∧ Receives d actor r s ∧
    v = ⟨id, .recipient, r.message_id⟩) ∨
  ∃ id m, d.mail.mails.rows id = some m ∧ Holds actor m s ∧ v = ⟨id, .sender, id⟩

theorem placeOf_system (h : (placeOf r = .sent ∨ placeOf r = .draft) ∨
    placeOf r = .scheduled) : False := by
  unfold placeOf at h
  split_ifs at h
  · simp at h
  · simp at h
  · rcases hf : r.folder_id with _ | f <;> simp [hf] at h

theorem placeOf_trash : placeOf r = .trash ↔ r.deleted_at.isSome = true := by
  unfold placeOf
  split_ifs with hd hs
  · simp [hd]
  · simp [hd]
  · rcases hf : r.folder_id with _ | f <;> simp [hd]

theorem placeOf_spam : placeOf r = .spam ↔ r.deleted_at.isNone = true ∧ r.is_spam = true := by
  unfold placeOf
  split_ifs with hd hs
  · simp [Option.isNone_eq_false_iff.mpr hd]
  · simp [Option.not_isSome_iff_eq_none.mp hd, hs]
  · rcases hf : r.folder_id with _ | f <;> simp [hs]

theorem placeOf_inbox :
    placeOf r = .inbox ↔ r.deleted_at.isNone = true ∧ r.is_spam = false ∧ r.folder_id = none := by
  unfold placeOf
  split_ifs with hd hs
  · simp [Option.isNone_eq_false_iff.mpr hd]
  · simp [hs]
  · rcases hf : r.folder_id with _ | f <;> simp [Option.not_isSome_iff_eq_none.mp hd, hs]

theorem placeOf_folder :
    placeOf r = .folder f ↔
      r.deleted_at.isNone = true ∧ r.is_spam = false ∧ r.folder_id = some f := by
  unfold placeOf
  split_ifs with hd hs
  · simp [Option.isNone_eq_false_iff.mpr hd]
  · simp [hs]
  · rcases hf : r.folder_id with _ | g <;> simp [Option.not_isSome_iff_eq_none.mp hd, hs]

theorem statusMailbox_iff {status : MailStatus} {s : MailboxScope} :
    statusMailbox status = some s ↔ (status = .sent ∧ s = .sent) ∨ (status = .draft ∧ s = .draft) ∨
      (status = .scheduled ∧ s = .scheduled) := by
  cases status <;> simp [statusMailbox, eq_comm]

theorem senderMailbox_iff {s : MailboxScope} :
    senderMailbox m = some s ↔ (m.sender_deleted_at.isSome = true ∧ s = .trash) ∨
      (m.sender_deleted_at.isNone = true ∧ statusMailbox m.status = some s) := by
  unfold senderMailbox
  split_ifs with hd
  · simp [hd, Option.isNone_eq_false_iff.mpr hd, eq_comm]
  · simp [Option.not_isSome_iff_eq_none.mp hd]

/-- The views of received mail that a query locks. -/
theorem mem_lockRecipients {p : Recipient → Bool} {s : MailboxScope}
    (hp : ∀ r, p r = true ↔ r.purged_at = none ∧ placeOf r = s) :
    v ∈ lockRecipients d actor p ↔ ∃ id r, d.mail.recipients.rows id = some r ∧
      Receives d actor r s ∧ v = ⟨id, .recipient, r.message_id⟩ := by
  unfold lockRecipients Receives
  rw [Table.mem_collect]
  constructor
  · rintro ⟨id, r, hr, hv⟩
    split_ifs at hv with hc
    obtain ⟨hreceived, hpr⟩ := Bool.and_eq_true_iff.mp hc
    exact ⟨id, r, hr, ⟨hreceived, (hp r).mp hpr⟩, (Option.some.inj hv).symm⟩
  · rintro ⟨id, r, hr, ⟨hreceived, hplace⟩, rfl⟩
    exact ⟨id, r, hr, if_pos (Bool.and_eq_true_iff.mpr ⟨hreceived, (hp r).mpr hplace⟩)⟩

theorem mem_lockMails {p : Mail → Bool} {s : MailboxScope}
    (hp : ∀ m, p m = true ↔ m.sender_purged_at = none ∧ saved m = true ∧ senderMailbox m = some s) :
    v ∈ lockMails d actor p ↔ ∃ id m, d.mail.mails.rows id = some m ∧
      Holds actor m s ∧ v = ⟨id, .sender, id⟩ := by
  unfold lockMails Holds
  rw [Table.mem_collect]
  constructor
  · rintro ⟨id, m, hm, hv⟩
    split_ifs at hv with hc
    obtain ⟨hwritten, hpm⟩ := Bool.and_eq_true_iff.mp hc
    exact ⟨id, m, hm, ⟨hwritten, (hp m).mp hpm⟩, (Option.some.inj hv).symm⟩
  · rintro ⟨id, m, hm, ⟨hwritten, hplace⟩, rfl⟩
    exact ⟨id, m, hm, if_pos (Bool.and_eq_true_iff.mpr ⟨hwritten, (hp m).mpr hplace⟩)⟩

/-- No received mail stands in a mailbox of own mails. -/
theorem not_received {s : MailboxScope} (hs : (s = .sent ∨ s = .draft) ∨ s = .scheduled) :
    ¬ ∃ id r, d.mail.recipients.rows id = some r ∧ Receives d actor r s ∧
      v = ⟨id, .recipient, r.message_id⟩ := by
  rintro ⟨id, r, -, ⟨-, -, rfl⟩, -⟩
  exact placeOf_system hs

/-- No own mail stands in a mailbox of received mails. -/
theorem not_held {s : MailboxScope} (hs : ∀ status, statusMailbox status ≠ some s)
    (htrash : s ≠ .trash) : ¬ ∃ id m, d.mail.mails.rows id = some m ∧ Holds actor m s ∧
      v = ⟨id, .sender, id⟩ := by
  rintro ⟨id, m, -, ⟨-, -, -, hm⟩, -⟩
  rcases senderMailbox_iff.mp hm with ⟨-, htr⟩ | ⟨-, hst⟩
  · exact htrash htr
  · exact hs m.status hst

/-- An own mail that is not deleted stands under its status. -/
theorem own_iff {status : MailStatus} {s : MailboxScope}
    (hs : ∀ st, statusMailbox st = some s ↔ st = status) (htrash : s ≠ .trash) :
    (decide (m.status = status) && m.live) = true ∧ saved m = true ↔
      m.sender_purged_at = none ∧ saved m = true ∧ senderMailbox m = some s := by
  rw [senderMailbox_iff, hs]
  simp only [Mail.live, Bool.and_eq_true, decide_eq_true_eq, Option.isNone_iff_eq_none]
  constructor
  · rintro ⟨⟨hstatus, hdeleted, hpurged⟩, hsaved⟩
    exact ⟨hpurged, hsaved, Or.inr ⟨hdeleted, hstatus⟩⟩
  · rintro ⟨hpurged, hsaved, ⟨-, htr⟩ | ⟨hdeleted, hstatus⟩⟩
    · exact absurd htr htrash
    · exact ⟨⟨hstatus, hdeleted, hpurged⟩, hsaved⟩

theorem saved_of_status (h : m.status ≠ .sent) : saved m = true := by
  simp [saved, h]

theorem senderMailbox_trash :
    senderMailbox m = some .trash ↔ m.sender_deleted_at.isSome = true := by
  rw [senderMailbox_iff]
  constructor
  · rintro (⟨hd, -⟩ | ⟨-, hst⟩)
    · exact hd
    · cases hm : m.status <;> simp [statusMailbox, hm] at hst
  · exact fun hd => Or.inl ⟨hd, rfl⟩

/-- The condition of the draft and the scheduled mailbox. -/
theorem unsent_iff {status : MailStatus} {s : MailboxScope} (hsent : status ≠ .sent)
    (hs : ∀ st, statusMailbox st = some s ↔ st = status) (htrash : s ≠ .trash) :
    (decide (m.status = status) && m.live) = true ↔
      m.sender_purged_at = none ∧ saved m = true ∧ senderMailbox m = some s := by
  rw [← own_iff hs htrash]
  constructor
  · intro h
    have hstatus := of_decide_eq_true (Bool.and_eq_true_iff.mp h).1
    exact ⟨h, saved_of_status (fun heq => hsent (hstatus.symm.trans heq))⟩
  · exact And.left

/-- The locking queries follow the places of the views. -/
theorem mem_lock {s : MailboxScope} : v ∈ _lock_current_views d actor s ↔ Stands d actor s v := by
  unfold Stands
  cases s with
  | trash =>
    change v ∈ lockRecipients d actor _ + lockMails d actor _ ↔ _
    rw [Multiset.mem_add]
    refine or_congr (mem_lockRecipients ?_) (mem_lockMails ?_)
    · intro r
      rw [placeOf_trash]
      simp [mail_messenger_service.Recipient.trashed, and_comm]
    · intro m
      rw [senderMailbox_trash]
      simp only [mail_messenger_service.Mail.trashed, Bool.and_eq_true, Option.isNone_iff_eq_none]
      constructor
      · rintro ⟨⟨hd, hp⟩, hsaved⟩
        exact ⟨hp, hsaved, hd⟩
      · rintro ⟨hp, hsaved, hd⟩
        exact ⟨⟨hd, hp⟩, hsaved⟩
  | inbox =>
    have hmail : ¬ ∃ id m, d.mail.mails.rows id = some m ∧ Holds actor m .inbox ∧
        v = ⟨id, .sender, id⟩ :=
      not_held (by simp [statusMailbox_iff]) (fun h => (by cases h))
    refine Iff.trans (mem_lockRecipients ?_) (or_iff_left hmail).symm
    intro r
    rw [placeOf_inbox]
    simp [mail_messenger_service.Recipient.live, and_comm, and_left_comm, and_assoc]
  | spam =>
    have hmail : ¬ ∃ id m, d.mail.mails.rows id = some m ∧ Holds actor m .spam ∧
        v = ⟨id, .sender, id⟩ :=
      not_held (by simp [statusMailbox_iff]) (fun h => (by cases h))
    refine Iff.trans (mem_lockRecipients ?_) (or_iff_left hmail).symm
    intro r
    rw [placeOf_spam]
    simp [mail_messenger_service.Recipient.live, and_left_comm, and_assoc]
  | folder f =>
    have hmail : ¬ ∃ id m, d.mail.mails.rows id = some m ∧ Holds actor m (.folder f) ∧
        v = ⟨id, .sender, id⟩ :=
      not_held (by simp [statusMailbox_iff]) (fun h => (by cases h))
    refine Iff.trans (mem_lockRecipients ?_) (or_iff_left hmail).symm
    intro r
    rw [placeOf_folder]
    simp [mail_messenger_service.Recipient.live, and_comm, and_left_comm, and_assoc]
  | sent =>
    refine Iff.trans (mem_lockMails ?_) (or_iff_right (not_received (Or.inl (Or.inl rfl)))).symm
    intro m
    have hown : (decide (m.status = .sent) && m.live) = true ∧ saved m = true ↔
        m.sender_purged_at = none ∧ saved m = true ∧ senderMailbox m = some .sent :=
      own_iff (by simp [statusMailbox_iff]) (fun h => (by cases h))
    rw [← hown]
    simp only [Bool.and_eq_true, decide_eq_true_eq]
    constructor
    · rintro ⟨⟨hstatus, hsaved⟩, hlive⟩
      exact ⟨⟨hstatus, hlive⟩, by simp [saved, hsaved]⟩
    · rintro ⟨⟨hstatus, hlive⟩, hsaved⟩
      exact ⟨⟨hstatus, by simpa [saved, hstatus] using hsaved⟩, hlive⟩
  | draft =>
    refine Iff.trans (mem_lockMails ?_) (or_iff_right (not_received (Or.inl (Or.inr rfl)))).symm
    exact fun m => unsent_iff (fun h => (by cases h)) (by simp [statusMailbox_iff])
      (fun h => (by cases h))
  | scheduled =>
    refine Iff.trans (mem_lockMails ?_) (or_iff_right (not_received (Or.inr rfl))).symm
    exact fun m => unsent_iff (fun h => (by cases h)) (by simp [statusMailbox_iff])
      (fun h => (by cases h))

/-! ## The overview -/

theorem rawRecipientView_iff {s : MailboxScope} {c : RowId × ViewType} (hs : ∀ f, s ≠ .folder f) :
    (∃ v, rawRecipientView d actor id r = some v ∧ v.mailbox = s ∧ v.view = c) ↔
      Receives d actor r s ∧ c = (r.message_id, .recipient) := by
  unfold rawRecipientView Receives
  constructor
  · rintro ⟨v, hv, rfl, rfl⟩
    split_ifs at hv with hc
    cases hv
    simp only [Bool.and_eq_true, Option.isNone_iff_eq_none] at hc
    obtain ⟨⟨hreceived, hpurged⟩, hplace⟩ := hc
    refine ⟨⟨hreceived, hpurged, ?_⟩, rfl⟩
    unfold placeOf recipientMailbox
    split_ifs with hdeleted hspam
    · rfl
    · rfl
    · have hfolder : r.folder_id = none := by simpa [hdeleted, hspam] using hplace
      rw [hfolder]
  · rintro ⟨⟨hreceived, hpurged, rfl⟩, rfl⟩
    have hplace : (r.deleted_at.isSome || r.is_spam || r.folder_id.isNone) = true ∧
        recipientMailbox r = placeOf r := by
      unfold placeOf at hs ⊢
      unfold recipientMailbox
      split_ifs at hs ⊢ with hdeleted hspam
      · simp [hdeleted]
      · simp [hspam]
      · rcases hf : r.folder_id with _ | f
        · simp
        · rw [hf] at hs
          exact absurd rfl (hs f)
    refine ⟨_, if_pos ?_, hplace.2, rfl⟩
    simp [hreceived, hpurged, hplace.1]

theorem rawSenderView_iff {s : MailboxScope} {c : RowId × ViewType} :
    (∃ v, rawSenderView d actor id m = some v ∧ v.mailbox = s ∧ v.view = c) ↔
      Holds actor m s ∧ c = (id, .sender) := by
  unfold rawSenderView Holds
  constructor
  · rintro ⟨v, hv, rfl, rfl⟩
    split_ifs at hv with hc
    simp only [Bool.and_eq_true, Option.isNone_iff_eq_none] at hc
    obtain ⟨mailbox, hmailbox, rfl⟩ := Option.map_eq_some_iff.mp hv
    exact ⟨⟨hc.1.1, hc.1.2, hc.2, hmailbox⟩, rfl⟩
  · rintro ⟨⟨hwritten, hpurged, hsaved, hmailbox⟩, rfl⟩
    refine ⟨⟨s, id, .sender, none, d.used_bytes id⟩, ?_, rfl, rfl⟩
    rw [if_pos (by simp [hwritten, hpurged, hsaved]), hmailbox]
    rfl

theorem folderView_iff {c : RowId × ViewType} :
    (∃ v, folderView d actor id r = some v ∧ v.mailbox = .folder f ∧ v.view = c) ↔
      Receives d actor r (.folder f) ∧ c = (r.message_id, .recipient) := by
  unfold folderView Receives
  rw [placeOf_folder]
  constructor
  · rintro ⟨v, hv, hmailbox, rfl⟩
    split_ifs at hv with hc
    simp only [mail_messenger_service.Recipient.live, Bool.and_eq_true, Bool.not_eq_true',
      Option.isNone_iff_eq_none] at hc
    obtain ⟨g, hg, rfl⟩ := Option.map_eq_some_iff.mp hv
    cases hmailbox
    exact ⟨⟨hc.1.1, hc.1.2.2, by simp [hc.1.2.1], hc.2, hg⟩, rfl⟩
  · rintro ⟨⟨hreceived, hpurged, hdeleted, hspam, hfolder⟩, rfl⟩
    refine ⟨⟨.folder f, r.message_id, .recipient, some r.is_read, d.used_bytes r.message_id⟩, ?_,
      rfl, rfl⟩
    rw [if_pos (by simp [mail_messenger_service.Recipient.live, hreceived, hpurged, hspam,
      Option.isNone_iff_eq_none.mp hdeleted]), hfolder]
    rfl

/-- The groups of a mailbox are the mails and types of the views that stand in it. -/
theorem stands_view {s : MailboxScope} {c : RowId × ViewType} :
    (∃ v, Stands d actor s v ∧ v.view = c) ↔
      (∃ id r, d.mail.recipients.rows id = some r ∧ Receives d actor r s ∧
        c = (r.message_id, .recipient)) ∨
      ∃ id m, d.mail.mails.rows id = some m ∧ Holds actor m s ∧ c = (id, .sender) := by
  constructor
  · rintro ⟨v, ⟨id, r, hr, hplace, rfl⟩ | ⟨id, m, hm, hplace, rfl⟩, rfl⟩
    · exact Or.inl ⟨id, r, hr, hplace, rfl⟩
    · exact Or.inr ⟨id, m, hm, hplace, rfl⟩
  · rintro (⟨id, r, hr, hplace, rfl⟩ | ⟨id, m, hm, hplace, rfl⟩)
    · exact ⟨_, Or.inl ⟨id, r, hr, hplace, rfl⟩, rfl⟩
    · exact ⟨_, Or.inr ⟨id, m, hm, hplace, rfl⟩, rfl⟩

/-- Which views a query collects for a mailbox. -/
theorem mem_collect_filter {κ ρ : Type} {t : Table κ ρ} {f : κ → ρ → Option ActorView}
    {s : MailboxScope} {c : RowId × ViewType} :
    (∃ v ∈ (t.collect f).filter (fun v => v.mailbox = s), v.view = c) ↔
      ∃ k r, t.rows k = some r ∧ ∃ v, f k r = some v ∧ v.mailbox = s ∧ v.view = c := by
  constructor
  · rintro ⟨v, hv, hc⟩
    obtain ⟨hmem, hs⟩ := Multiset.mem_filter.mp hv
    obtain ⟨k, r, hr, hf⟩ := Table.mem_collect.mp hmem
    exact ⟨k, r, hr, v, hf, hs, hc⟩
  · rintro ⟨k, r, hr, v, hf, hs, hc⟩
    exact ⟨v, Multiset.mem_filter.mpr ⟨Table.mem_collect.mpr ⟨k, r, hr, hf⟩, hs⟩, hc⟩

/-- Each mailbox of the overview counts the views that stand in it. -/
theorem overview_groups {s : MailboxScope} (hs : ∀ f, s ≠ .folder f) {c : RowId × ViewType} :
    (∃ v ∈ (raw_actor_views d actor).filter (fun v => v.mailbox = s), v.view = c) ↔
      ∃ v ∈ _lock_current_views d actor s, v.view = c := by
  have hsplit : (∃ v ∈ (raw_actor_views d actor).filter (fun v => v.mailbox = s), v.view = c) ↔
      (∃ v ∈ (d.mail.recipients.collect (rawRecipientView d actor)).filter
        (fun v => v.mailbox = s), v.view = c) ∨
      ∃ v ∈ (d.mail.mails.collect (rawSenderView d actor)).filter
        (fun v => v.mailbox = s), v.view = c := by
    unfold raw_actor_views
    simp only [Multiset.filter_add, Multiset.mem_add, or_and_right, exists_or]
  rw [hsplit, mem_collect_filter, mem_collect_filter]
  simp only [rawRecipientView_iff hs, rawSenderView_iff, mem_lock]
  exact stands_view.symm

theorem folder_groups {c : RowId × ViewType} :
    (∃ v ∈ (folder_actor_views d actor).filter (fun v => v.mailbox = .folder f), v.view = c) ↔
      ∃ v ∈ _lock_current_views d actor (.folder f), v.view = c := by
  unfold folder_actor_views
  rw [mem_collect_filter]
  simp only [folderView_iff, mem_lock, stands_view]
  refine (or_iff_left ?_).symm
  rintro ⟨id, m, -, ⟨-, -, -, hm⟩, -⟩
  rcases senderMailbox_iff.mp hm with ⟨-, h⟩ | ⟨-, h⟩
  · cases h
  · simp [statusMailbox_iff] at h

/-! ## The counts -/

theorem mem_ownFolders : f ∈ ownFolders d actor ↔
    d.mail.settings.folders.rows f = some ⟨actor.companyId, actor.userId⟩ := by
  unfold ownFolders
  rw [List.mem_filter, Table.mem_orderedKeys, decide_eq_true_eq]
  constructor
  · exact And.right
  · intro h
    exact ⟨by rw [h]; rfl, h⟩

/-- The mailboxes that the overview reports are those that may be emptied. -/
theorem reported_iff {s : MailboxScope} :
    (∃ row ∈ get_settings d actor, row.mailbox = s) ↔ _authorize_scope d actor s = .ok () := by
  have hfolders : (∃ row ∈ _folder_overview_sql d actor, row.mailbox = s) ↔
      ∃ f, f ∈ ownFolders d actor ∧ s = .folder f := by
    unfold _folder_overview_sql
    constructor
    · rintro ⟨row, hrow, rfl⟩
      obtain ⟨f, hf, rfl⟩ := List.mem_map.mp hrow
      exact ⟨f, hf, rfl⟩
    · rintro ⟨f, hf, rfl⟩
      exact ⟨_, List.mem_map.mpr ⟨f, hf, rfl⟩, rfl⟩
  have hsystem : (∃ row ∈ _system_overview_sql d actor, row.mailbox = s) ↔
      s ∈ [MailboxScope.inbox, .sent, .draft, .scheduled, .spam, .trash] := List.mem_map.symm
  simp only [get_settings, List.mem_append, or_and_right, exists_or, hfolders, hsystem]
  cases s with
  | folder f =>
    simp only [_authorize_scope, Raise.require_ok, mem_ownFolders]
    constructor
    · rintro (hmem | ⟨g, hg, heq⟩)
      · simp at hmem
      · cases heq
        exact hg
    · exact fun h => Or.inr ⟨f, h, rfl⟩
  | _ => exact ⟨fun _ => rfl, fun _ => Or.inl (by decide)⟩

theorem overview_count {s : MailboxScope} {policy : Option Policy} {editable unread : Bool}
    {fixed : Option Nat} (hs : ∀ f, s ≠ .folder f) :
    (overviewRow (raw_actor_views d actor) s policy editable unread fixed).totalCount =
      _logical_view_count (_lock_current_views d actor s) :=
  congrArg Finset.card (groups_congr (fun _ => overview_groups hs))

theorem count_agrees {row : MailboxSettingsRow} (h : row ∈ get_settings d actor) :
    row.totalCount = _logical_view_count (_lock_current_views d actor row.mailbox) := by
  rcases List.mem_append.mp h with hsystem | hfolder
  · simp only [_system_overview_sql, List.mem_cons, List.not_mem_nil, or_false] at hsystem
    rcases hsystem with rfl | rfl | rfl | rfl | rfl | rfl <;>
      exact overview_count (fun _ => nofun)
  · obtain ⟨f, -, rfl⟩ := List.mem_map.mp hfolder
    exact congrArg Finset.card (groups_congr (fun c => folder_groups))

/-! ## One mailbox for each view -/

theorem receives_unique {s s' : MailboxScope} (h : Receives d actor r s)
    (h' : Receives d actor r s') : s' = s := h'.2.2.symm.trans h.2.2

theorem holds_unique {s s' : MailboxScope} (h : Holds actor m s) (h' : Holds actor m s') :
    s' = s := by
  have heq := h'.2.2.2.symm.trans h.2.2.2
  cases heq
  rfl

theorem stands_unique {s s' : MailboxScope} (h : Stands d actor s v) (h' : Stands d actor s' v) :
    s' = s := by
  rcases h with ⟨id, r, hr, hplace, rfl⟩ | ⟨id, m, hm, hplace, rfl⟩
  · rcases h' with ⟨id', r', hr', hplace', heq⟩ | ⟨id', m', hm', hplace', heq⟩
    · obtain rfl : id = id' := congrArg LockedView.view_id heq
      cases hr.symm.trans hr'
      exact receives_unique hplace hplace'
    · cases heq
  · rcases h' with ⟨id', r', hr', hplace', heq⟩ | ⟨id', m', hm', hplace', heq⟩
    · cases heq
    · obtain rfl : id = id' := congrArg LockedView.view_id heq
      cases hm.symm.trans hm'
      exact holds_unique hplace hplace'

/-- A received mail stands in a mailbox of the user, unless it is in a folder of someone else. -/
theorem received_place (hr : d.mail.recipients.rows id = some r)
    (hreceived : received d actor r = true) (hlive : r.purged_at = none)
    (hown : r.deleted_at.isSome = true ∨ r.is_spam = true ∨ ∀ f, r.folder_id = some f →
      f ∈ ownFolders d actor) :
    _authorize_scope d actor (placeOf r) = .ok () ∧
      Stands d actor (placeOf r) ⟨id, .recipient, r.message_id⟩ := by
  refine ⟨?_, Or.inl ⟨id, r, hr, ⟨hreceived, hlive, rfl⟩, rfl⟩⟩
  rcases hplace : placeOf r with _ | _ | _ | _ | _ | _ | f <;> try rfl
  obtain ⟨hdeleted, hspam, hfolder⟩ := placeOf_folder.mp hplace
  have hmine : f ∈ ownFolders d actor := by
    rcases hown with h | h | h
    · rw [Option.isNone_iff_eq_none.mp hdeleted] at h
      cases h
    · rw [hspam] at h
      cases h
    · exact h f hfolder
  exact Raise.require_ok.mpr (mem_ownFolders.mp hmine)

theorem written_place (hm : d.mail.mails.rows id = some m) (hwritten : written actor m = true)
    (hlive : m.sender_purged_at = none) (hsaved : saved m = true)
    (hstatus : m.sender_deleted_at.isSome = true ∨ m.status ≠ .cancelled) :
    ∃ s, _authorize_scope d actor s = .ok () ∧ Stands d actor s ⟨id, .sender, id⟩ := by
  have hplace : ∃ s, senderMailbox m = some s ∧ ∀ f, s ≠ .folder f := by
    unfold senderMailbox
    split_ifs with hdeleted
    · exact ⟨.trash, rfl, nofun⟩
    · rcases hst : m.status with _ | _ | _ | _
      · exact ⟨.draft, rfl, fun _ => nofun⟩
      · exact ⟨.scheduled, rfl, fun _ => nofun⟩
      · exact ⟨.sent, rfl, fun _ => nofun⟩
      · rcases hstatus with h | h
        · exact absurd h hdeleted
        · exact absurd hst h
  obtain ⟨s, hs, hfolder⟩ := hplace
  refine ⟨s, ?_, Or.inr ⟨id, m, hm, ⟨hwritten, hlive, hsaved, hs⟩, rfl⟩⟩
  cases s with
  | folder f => exact absurd rfl (hfolder f)
  | _ => rfl

/-! ## Emptying -/

/-- The mailbox may be emptied, and holds as many views as the request says. -/
theorem empty_mailbox_ok {s : MailboxScope} {payload : MailMailboxEmptyRequest} {now : Time}
    {d' : Database} {n : Nat} (h : empty_mailbox d actor s payload now = .ok (d', n)) :
    d' = { d with mail := _apply_empty d s (_lock_current_views d actor s) now } := by
  obtain ⟨_, -, h⟩ := Raise.bind_ok.mp h
  obtain ⟨_, -, h⟩ := Raise.bind_ok.mp h
  obtain ⟨_, -, h⟩ := Raise.bind_ok.mp h
  cases h
  rfl

theorem mem_lockedIds {views : Multiset LockedView} {t : ViewType} :
    id ∈ lockedIds views t ↔ ∃ v ∈ views, v.view_type = t ∧ v.view_id = id := by
  unfold lockedIds
  rw [Multiset.mem_map]
  constructor
  · rintro ⟨v, hv, hid⟩
    exact ⟨v, (Multiset.mem_filter.mp hv).1, (Multiset.mem_filter.mp hv).2, hid⟩
  · rintro ⟨v, hv, ht, hid⟩
    exact ⟨v, Multiset.mem_filter.mpr ⟨hv, ht⟩, hid⟩

/-- The received mails that are locked are those that stand in the mailbox. -/
theorem locked_recipient {s : MailboxScope} (hr : d.mail.recipients.rows id = some r) :
    id ∈ lockedIds (_lock_current_views d actor s) .recipient ↔ Receives d actor r s := by
  rw [mem_lockedIds]
  constructor
  · rintro ⟨v, hv, ht, rfl⟩
    rcases mem_lock.mp hv with ⟨id, r', hr', hplace, rfl⟩ | ⟨id, m, hm, hplace, rfl⟩
    · cases hr.symm.trans hr'
      exact hplace
    · cases ht
  · exact fun hplace => ⟨_, mem_lock.mpr (Or.inl ⟨id, r, hr, hplace, rfl⟩), rfl, rfl⟩

theorem locked_sender {s : MailboxScope} (hm : d.mail.mails.rows id = some m) :
    id ∈ lockedIds (_lock_current_views d actor s) .sender ↔ Holds actor m s := by
  rw [mem_lockedIds]
  constructor
  · rintro ⟨v, hv, ht, rfl⟩
    rcases mem_lock.mp hv with ⟨id, r', hr', hplace, rfl⟩ | ⟨id, m', hm', hplace, rfl⟩
    · cases ht
    · cases hm.symm.trans hm'
      exact hplace
  · exact fun hplace => ⟨_, mem_lock.mpr (Or.inr ⟨id, m, hm, hplace, rfl⟩), rfl, rfl⟩

/-! ## The tables after a mailbox other than the trash is emptied -/

/-- The tables after the two UPDATEs. -/
def emptied (d : Database) (actor : AuthUserSummary) (s : MailboxScope) (now : Time) : Database :=
  { d with mail := _apply_empty d s (_lock_current_views d actor s) now }

section Emptied

variable {s : MailboxScope} {now : Time}

theorem emptied_recipients (hs : s ≠ .trash) : (emptied d actor s now).mail.recipients =
    d.mail.recipients.update (fun id r =>
      decide (id ∈ lockedIds (_lock_current_views d actor s) .recipient) && r.live)
      (trashRecipient now) := by
  cases s with
  | trash => exact absurd rfl hs
  | _ => rfl

theorem emptied_mails (hs : s ≠ .trash) : (emptied d actor s now).mail.mails =
    d.mail.mails.update (fun id m =>
      decide (id ∈ lockedIds (_lock_current_views d actor s) .sender) && m.live)
      (trashMail now (decide (s = .scheduled))) := by
  cases s with
  | trash => exact absurd rfl hs
  | _ => rfl

/-- A view outside the trash is not deleted. -/
theorem Receives.live {r : Recipient} (h : Receives d actor r s) (hs : s ≠ .trash) :
    r.live = true := by
  obtain ⟨-, hpurged, hplace⟩ := h
  have hdeleted : ¬ r.deleted_at.isSome = true := fun hd => hs (hplace ▸ placeOf_trash.mpr hd)
  simp [mail_messenger_service.Recipient.live, hpurged, Option.not_isSome_iff_eq_none.mp hdeleted]

theorem Holds.live {m : Mail} (h : Holds actor m s) (hs : s ≠ .trash) : m.live = true := by
  obtain ⟨-, hpurged, -, hplace⟩ := h
  have hdeleted : ¬ m.sender_deleted_at.isSome = true := by
    intro hd
    cases hplace.symm.trans (senderMailbox_trash.mpr hd)
    exact hs rfl
  simp [mail_messenger_service.Mail.live, hpurged, Option.not_isSome_iff_eq_none.mp hdeleted]

theorem emptied_recipient {id : RowId} {r : Recipient} (hs : s ≠ .trash)
    (hr : d.mail.recipients.rows id = some r) :
    (Receives d actor r s ∧
      (emptied d actor s now).mail.recipients.rows id = some (trashRecipient now r)) ∨
    (¬ Receives d actor r s ∧ (emptied d actor s now).mail.recipients.rows id = some r) := by
  rw [emptied_recipients hs]
  change _ ∧ (d.mail.recipients.rows id).map _ = _ ∨ _ ∧ (d.mail.recipients.rows id).map _ = _
  rw [hr]
  by_cases h : Receives d actor r s
  · left
    simp [h, (locked_recipient hr).mpr h, h.live hs]
  · right
    simp [h, mt (locked_recipient hr).mp h]

theorem emptied_mail {id : RowId} {m : Mail} (hs : s ≠ .trash)
    (hm : d.mail.mails.rows id = some m) :
    (Holds actor m s ∧ (emptied d actor s now).mail.mails.rows id =
      some (trashMail now (decide (s = .scheduled)) m)) ∨
    (¬ Holds actor m s ∧ (emptied d actor s now).mail.mails.rows id = some m) := by
  rw [emptied_mails hs]
  change _ ∧ (d.mail.mails.rows id).map _ = _ ∨ _ ∧ (d.mail.mails.rows id).map _ = _
  rw [hm]
  by_cases h : Holds actor m s
  · left
    simp [h, (locked_sender hm).mpr h, h.live hs]
  · right
    simp [h, mt (locked_sender hm).mp h]

theorem recipient_of_emptied {id : RowId} {r' : Recipient} (hs : s ≠ .trash)
    (hr : (emptied d actor s now).mail.recipients.rows id = some r') :
    ∃ r, d.mail.recipients.rows id = some r := by
  rw [emptied_recipients hs] at hr
  obtain ⟨r, hr, -⟩ := Option.map_eq_some_iff.mp hr
  exact ⟨r, hr⟩

theorem mail_of_emptied {id : RowId} {m' : Mail} (hs : s ≠ .trash)
    (hm : (emptied d actor s now).mail.mails.rows id = some m') :
    ∃ m, d.mail.mails.rows id = some m := by
  rw [emptied_mails hs] at hm
  obtain ⟨m, hm, -⟩ := Option.map_eq_some_iff.mp hm
  exact ⟨m, hm⟩

/-- Emptying makes no mail a sent one, nor takes a sent one back. -/
theorem emptied_sent {b : AuthUserSummary} {m : Mail} (h : Holds actor m s) (hs : s ≠ .trash) :
    (b.within (trashMail now (decide (s = .scheduled)) m) &&
      decide ((trashMail now (decide (s = .scheduled)) m).status = .sent)) =
    (b.within m && decide (m.status = .sent)) := by
  by_cases hscheduled : s = .scheduled
  · subst hscheduled
    have hstatus : m.status = .scheduled := by
      rcases senderMailbox_iff.mp h.2.2.2 with ⟨-, heq⟩ | ⟨-, hst⟩
      · cases heq
      · simpa [statusMailbox_iff] using hst
    simp [trashMail, hstatus]
  · simp only [trashMail, hscheduled, decide_false, Bool.false_eq_true, if_false]
    rfl

theorem emptied_received {b : AuthUserSummary} {r : Recipient} (hs : s ≠ .trash) :
    received (emptied d actor s now) b r = received d b r := by
  unfold received mail_messenger_service.Db.joined
  rcases hm : d.mail.mails.rows r.message_id with _ | m
  · rcases hm' : (emptied d actor s now).mail.mails.rows r.message_id with _ | m'
    · rfl
    · obtain ⟨m, hold⟩ := mail_of_emptied hs hm'
      rw [hm] at hold
      cases hold
  · rcases emptied_mail hs hm with ⟨h, hm'⟩ | ⟨-, hm'⟩
    · rw [hm', Option.any_some, Option.any_some, emptied_sent h hs]
    · rw [hm']

/-- Nothing is left in the mailbox. -/
theorem emptied_zero (hs : s ≠ .trash) :
    _logical_view_count (_lock_current_views (emptied d actor s now) actor s) = 0 := by
  refine card_groups_eq_zero.mpr (Multiset.eq_zero_of_forall_notMem ?_)
  intro v hv
  rcases mem_lock.mp hv with ⟨id, r', hr', hplace, -⟩ | ⟨id, m', hm', hplace, -⟩
  · obtain ⟨r, hr⟩ := recipient_of_emptied hs hr'
    rcases emptied_recipient hs hr with ⟨-, hnew⟩ | ⟨hout, hnew⟩
    · cases hr'.symm.trans hnew
      have hlive := hplace.live hs
      simp [mail_messenger_service.Recipient.live, trashRecipient] at hlive
    · cases hr'.symm.trans hnew
      exact hout ⟨(emptied_received hs).symm.trans hplace.1, hplace.2⟩
  · obtain ⟨m, hm⟩ := mail_of_emptied hs hm'
    rcases emptied_mail hs hm with ⟨-, hnew⟩ | ⟨hout, hnew⟩
    · cases hm'.symm.trans hnew
      have hlive := hplace.live hs
      simp [mail_messenger_service.Mail.live, trashMail] at hlive
    · cases hm'.symm.trans hnew
      exact hout hplace

/-- A view of another mailbox stays where it stands, for every user. -/
theorem emptied_frame {b : AuthUserSummary} {s' : MailboxScope} {v : LockedView} (hs : s ≠ .trash)
    (hv : ¬ Stands d actor s v) : Stands (emptied d actor s now) b s' v ↔ Stands d b s' v := by
  constructor
  · rintro (⟨id, r', hr', hplace, rfl⟩ | ⟨id, m', hm', hplace, rfl⟩)
    · obtain ⟨r, hr⟩ := recipient_of_emptied hs hr'
      rcases emptied_recipient hs hr with ⟨hin, hnew⟩ | ⟨-, hnew⟩
      · cases hr'.symm.trans hnew
        exact absurd (Or.inl ⟨id, r, hr, hin, rfl⟩) hv
      · cases hr'.symm.trans hnew
        exact Or.inl ⟨id, r', hr, ⟨(emptied_received hs).symm.trans hplace.1, hplace.2⟩, rfl⟩
    · obtain ⟨m, hm⟩ := mail_of_emptied hs hm'
      rcases emptied_mail hs hm with ⟨hin, hnew⟩ | ⟨-, hnew⟩
      · exact absurd (Or.inr ⟨id, m, hm, hin, rfl⟩) hv
      · cases hm'.symm.trans hnew
        exact Or.inr ⟨id, m', hm, hplace, rfl⟩
  · rintro (⟨id, r, hr, hplace, rfl⟩ | ⟨id, m, hm, hplace, rfl⟩)
    · rcases emptied_recipient hs hr with ⟨hin, hnew⟩ | ⟨-, hnew⟩
      · exact absurd (Or.inl ⟨id, r, hr, hin, rfl⟩) hv
      · exact Or.inl ⟨id, r, hnew, ⟨(emptied_received hs).trans hplace.1, hplace.2⟩, rfl⟩
    · rcases emptied_mail hs hm with ⟨hin, hnew⟩ | ⟨-, hnew⟩
      · exact absurd (Or.inr ⟨id, m, hm, hin, rfl⟩) hv
      · exact Or.inr ⟨id, m, hnew, hplace, rfl⟩

end Emptied

/-! ## The law of the mailboxes -/

/-- The overview counts what the locks hold, each view of a sent or own mail stands in one reported
mailbox, and emptying a mailbox other than the trash moves all of its views and no other. -/
theorem mailboxes_agree (d : Database) (actor : AuthUserSummary) :
    (∀ row ∈ get_settings d actor,
      row.totalCount = _logical_view_count (_lock_current_views d actor row.mailbox)) ∧
    (∀ s, (∃ row ∈ get_settings d actor, row.mailbox = s) ↔ _authorize_scope d actor s = .ok ()) ∧
    (∀ id r, d.mail.recipients.rows id = some r → received d actor r = true → r.purged_at = none →
      (r.deleted_at.isSome = true ∨ r.is_spam = true ∨ ∀ f, r.folder_id = some f →
        f ∈ ownFolders d actor) →
      ∃ row ∈ get_settings d actor, ∀ s,
        ⟨id, .recipient, r.message_id⟩ ∈ _lock_current_views d actor s ↔ s = row.mailbox) ∧
    (∀ id m, d.mail.mails.rows id = some m → written actor m = true → m.sender_purged_at = none →
      saved m = true → (m.sender_deleted_at.isSome = true ∨ m.status ≠ .cancelled) →
      ∃ row ∈ get_settings d actor, ∀ s,
        ⟨id, .sender, id⟩ ∈ _lock_current_views d actor s ↔ s = row.mailbox) ∧
    (∀ s payload now d' n, s ≠ .trash → empty_mailbox d actor s payload now = .ok (d', n) →
      (∀ row ∈ get_settings d' actor, row.mailbox = s → row.totalCount = 0) ∧
      _logical_view_count (_lock_current_views d' actor s) = 0 ∧
      ∀ b s' v, v ∉ _lock_current_views d actor s →
        (v ∈ _lock_current_views d' b s' ↔ v ∈ _lock_current_views d b s')) := by
  refine ⟨fun row hrow => count_agrees hrow, fun s => reported_iff, ?_, ?_, ?_⟩
  · intro id r hr hreceived hlive hown
    obtain ⟨hscope, hstands⟩ := received_place hr hreceived hlive hown
    obtain ⟨row, hrow, hmailbox⟩ := reported_iff.mpr hscope
    refine ⟨row, hrow, fun s => mem_lock.trans ?_⟩
    rw [hmailbox]
    exact ⟨fun h => stands_unique hstands h, fun h => h ▸ hstands⟩
  · intro id m hm hwritten hlive hsaved hstatus
    obtain ⟨place, hscope, hstands⟩ := written_place hm hwritten hlive hsaved hstatus
    obtain ⟨row, hrow, hmailbox⟩ := reported_iff.mpr hscope
    refine ⟨row, hrow, fun s => mem_lock.trans ?_⟩
    rw [hmailbox]
    exact ⟨fun h => stands_unique hstands h, fun h => h ▸ hstands⟩
  · intro s payload now d' n hs h
    have hd : d' = emptied d actor s now := empty_mailbox_ok h
    subst hd
    have hzero : _logical_view_count (_lock_current_views (emptied d actor s now) actor s) = 0 :=
      emptied_zero hs
    refine ⟨?_, hzero, ?_⟩
    · intro row hrow hmailbox
      rw [count_agrees hrow, hmailbox]
      exact hzero
    · intro b s' v hv
      rw [mem_lock, mem_lock]
      exact emptied_frame hs (mt mem_lock.mpr hv)

def boxes (mail : Db) : Database := ⟨mail, Table.empty, fun _ => 0⟩

theorem bob_empties_his_inbox : ∃ d' n,
    empty_mailbox (boxes mail_messenger_service.sentDb) mail_messenger_service.bob .inbox
      ⟨1, false⟩ 9 = .ok (d', n) ∧
    ∀ row ∈ get_settings d' mail_messenger_service.bob, row.mailbox = .inbox →
      row.totalCount = 0 := by
  have hok : (empty_mailbox (boxes mail_messenger_service.sentDb) mail_messenger_service.bob .inbox
      ⟨1, false⟩ 9).toOption.isSome = true := by decide +kernel
  obtain ⟨⟨d', n⟩, h⟩ := Option.isSome_iff_exists.mp hok
  have hempty := Raise.ok_of_toOption h
  have hlaw := (mailboxes_agree (boxes mail_messenger_service.sentDb)
    mail_messenger_service.bob).2.2.2.2
  exact ⟨d', n, hempty, (hlaw .inbox ⟨1, false⟩ 9 d' n nofun hempty).1⟩

/-- The row of an addressee of a draft stands in no mailbox. -/
theorem a_draft_stands_in_no_mailbox_of_its_addressee : ∃ id r,
    (boxes mail_messenger_service.draftDb).mail.recipients.rows id = some r ∧
    mail_messenger_service.bob.owns r = true ∧
    mail_messenger_service.draftDb.joined r mail_messenger_service.bob.within = true ∧
    r.purged_at = none ∧ ∀ s, ⟨id, .recipient, r.message_id⟩ ∉
      _lock_current_views (boxes mail_messenger_service.draftDb) mail_messenger_service.bob s := by
  have hrow : ((boxes mail_messenger_service.draftDb).mail.recipients.rows
      (.recipient 0 "bob@moa.kr")).any (fun r => mail_messenger_service.bob.owns r &&
        mail_messenger_service.draftDb.joined r mail_messenger_service.bob.within &&
        r.purged_at.isNone && !received (boxes mail_messenger_service.draftDb)
          mail_messenger_service.bob r) = true := by decide +kernel
  obtain ⟨r, hr, h⟩ := (Option.any_eq_true _ _).mp hrow
  simp only [Bool.and_eq_true, Bool.not_eq_true', Option.isNone_iff_eq_none] at h
  refine ⟨_, r, hr, h.1.1.1, h.1.1.2, h.1.2, fun s hmem => ?_⟩
  rcases mem_lock.mp hmem with ⟨id, r', hr', hplace, heq⟩ | ⟨id, m, hm, hplace, heq⟩
  · have hid : _ = id := congrArg LockedView.view_id heq
    subst hid
    cases hr.symm.trans hr'
    exact nomatch h.2.symm.trans hplace.1
  · cases heq

end moaworks.mailbox_settings
