-- Which mails a user can open and use, against the mails that stand in the lists: the details
-- ask for one view, the lists for other conditions, and the operations for the inbox.
import MoaWorks.MailRuns

namespace moaworks.mail_messenger_service

open mail_policies (Codec Error)
open Raise (bind_ok found_ok mapM_ok_of_all require_ok)

variable {db : Db} {actor : AuthUserSummary} {mail_id : RowId}

/-! ## The rows of a user -/

/-- The user has a row of the mail with a property. -/
def HasRow (db : Db) (actor : AuthUserSummary) (mail_id : RowId) (p : RowId → Recipient → Prop) :
    Prop :=
  ∃ id r, db.recipients.rows id = some r ∧ r.message_id = mail_id ∧ actor.owns r = true ∧ p id r

theorem HasRow.mono {p q : RowId → Recipient → Prop} (h : HasRow db actor mail_id p)
    (hpq : ∀ id r, p id r → q id r) : HasRow db actor mail_id q := by
  obtain ⟨id, r, hr, hmail, howns, hp⟩ := h
  exact ⟨id, r, hr, hmail, howns, hpq id r hp⟩

/-- What is not purged is live, or it is in the trash. -/
theorem Recipient.live_or_trashed_iff {r : Recipient} :
    r.live = true ∨ r.trashed = true ↔ r.purged_at = none := by
  cases hdeleted : r.deleted_at <;> simp [Recipient.live, Recipient.trashed, hdeleted]

theorem Mail.live_or_trashed_iff {m : Mail} :
    m.live = true ∨ m.trashed = true ↔ m.sender_purged_at = none := by
  cases hdeleted : m.sender_deleted_at <;> simp [Mail.live, Mail.trashed, hdeleted]

/-! ## What opens a mail -/

theorem opens_iff {view : View} {m : Mail} :
    opens db actor mail_id view m = true ↔ actor.within m = true ∧
      (view = .scheduled → m.status = .scheduled) ∧
      (actor.sends m = true ∧ sender_state view m = true ∨
        HasRow db actor mail_id (fun _ r => recipient_state view r = true)) := by
  have hrow : (db.recipients.select (fun _ r => decide (r.message_id = mail_id) && actor.owns r &&
      recipient_state view r)).Nonempty ↔
      HasRow db actor mail_id (fun _ r => recipient_state view r = true) := by
    simp [Finset.Nonempty, Table.mem_select, HasRow, and_assoc]
  simp only [opens, Bool.and_eq_true, Bool.or_eq_true, decide_eq_true_eq, and_assoc, hrow]
  rw [← imp_iff_not_or]

theorem fetch_ok {view : View} {m : Mail} :
    _fetch_accessible_mail db actor mail_id view = .ok m ↔
      db.mails.rows mail_id = some m ∧ opens db actor mail_id view m = true := by
  unfold _fetch_accessible_mail
  constructor
  · intro h
    obtain ⟨m', hm', h⟩ := bind_ok.1 h
    obtain ⟨_, hopens, h⟩ := bind_ok.1 h
    cases h
    exact ⟨found_ok.1 hm', require_ok.1 hopens⟩
  · rintro ⟨hm, hopens⟩
    exact bind_ok.2 ⟨m, found_ok.2 hm, bind_ok.2 ⟨(), require_ok.2 hopens, rfl⟩⟩

/-- The mail opens in some view of its details. -/
def Openable (db : Db) (actor : AuthUserSummary) (mail_id : RowId) : Prop :=
  ∃ view m, get_mail db actor mail_id view = .ok m

/-- A mail opens as long as the copy of the sender or some row of the user is not purged. -/
theorem openable_iff : Openable db actor mail_id ↔ ∃ m, db.mails.rows mail_id = some m ∧
    actor.within m = true ∧ (actor.sends m = true ∧ m.sender_purged_at = none ∨
      HasRow db actor mail_id (fun _ r => r.purged_at = none)) := by
  constructor
  · rintro ⟨view, m, h⟩
    obtain ⟨hm, hopens⟩ := fetch_ok.1 h
    obtain ⟨hwithin, _, hside⟩ := opens_iff.1 hopens
    refine ⟨m, hm, hwithin, hside.imp (fun hsender => ⟨hsender.1, ?_⟩) (fun hrow =>
      hrow.mono (fun id r hstate => ?_))⟩
    · cases view <;>
        simp_all [sender_state, Mail.live, Mail.trashed, Option.isNone_iff_eq_none]
    · cases view <;>
        simp_all [recipient_state, Recipient.live, Recipient.trashed, Option.isNone_iff_eq_none]
  · rintro ⟨m, hm, hwithin, hside⟩
    have hopen : ∀ view, view ≠ .scheduled → (actor.sends m = true ∧ sender_state view m = true ∨
        HasRow db actor mail_id (fun _ r => recipient_state view r = true)) →
        Openable db actor mail_id :=
      fun view hview hside => ⟨view, m, fetch_ok.2 ⟨hm, opens_iff.2
        ⟨hwithin, fun h => absurd h hview, hside⟩⟩⟩
    -- The trash opens what was deleted, and the view of a folder all the rest.
    rcases hside with ⟨hsends, hpurged⟩ | ⟨id, r, hr, hmail, howns, hpurged⟩
    · rcases Mail.live_or_trashed_iff.2 hpurged with h | h
      · exact hopen .folder (by decide) (.inl ⟨hsends, h⟩)
      · exact hopen .trash (by decide) (.inl ⟨hsends, h⟩)
    · rcases Recipient.live_or_trashed_iff.2 hpurged with h | h
      · exact hopen .folder (by decide) (.inr ⟨id, r, hr, hmail, howns, h⟩)
      · exact hopen .trash (by decide) (.inr ⟨id, r, hr, hmail, howns, h⟩)

/-! ## What a list shows -/

theorem mem_list {context : RowId → Recipient → Bool} {id : RowId} :
    id ∈ _list_ui020_recipient db actor context ↔
      ∃ r m, db.recipients.rows id = some r ∧ actor.owns r = true ∧ r.live = true ∧
        db.mails.rows r.message_id = some m ∧ actor.within m = true ∧ m.status = .sent ∧
        context id r = true := by
  simp only [_list_ui020_recipient, Table.mem_select, Db.joined, Bool.and_eq_true,
    Option.any_eq_true, decide_eq_true_eq]
  constructor
  · rintro ⟨r, hr, ⟨⟨howns, hlive⟩, m, hm, hwithin, hsent⟩, hcontext⟩
    exact ⟨r, m, hr, howns, hlive, hm, hwithin, hsent, hcontext⟩
  · rintro ⟨r, m, hr, howns, hlive, hm, hwithin, hsent, hcontext⟩
    exact ⟨r, hr, ⟨⟨howns, hlive⟩, m, hm, hwithin, hsent⟩, hcontext⟩

theorem mem_trash {id : RowId} : id ∈ list_trash_recipients db actor ↔
    ∃ r m, db.recipients.rows id = some r ∧ actor.owns r = true ∧ r.trashed = true ∧
      db.mails.rows r.message_id = some m ∧ actor.within m = true := by
  simp only [list_trash_recipients, Table.mem_select, Db.joined, Bool.and_eq_true,
    Option.any_eq_true]
  constructor
  · rintro ⟨r, hr, ⟨howns, htrashed⟩, m, hm, hwithin⟩
    exact ⟨r, m, hr, howns, htrashed, hm, hwithin⟩
  · rintro ⟨r, m, hr, howns, htrashed, hm, hwithin⟩
    exact ⟨r, hr, ⟨howns, htrashed⟩, m, hm, hwithin⟩

theorem shows_trash : Shows db (list_trash_recipients db actor) mail_id ↔
    ∃ m, db.mails.rows mail_id = some m ∧ actor.within m = true ∧
      HasRow db actor mail_id (fun _ r => r.trashed = true) := by
  rw [shows_iff]
  constructor
  · rintro ⟨id, hid, r, hr, rfl⟩
    obtain ⟨r', m, hr', howns, htrashed, hm, hwithin⟩ := mem_trash.1 hid
    cases hr.symm.trans hr'
    exact ⟨m, hm, hwithin, id, r, hr, rfl, howns, htrashed⟩
  · rintro ⟨m, hm, hwithin, id, r, hr, rfl, howns, htrashed⟩
    exact ⟨id, mem_trash.2 ⟨r, m, hr, howns, htrashed, hm, hwithin⟩, r, hr, rfl⟩

theorem lock_folder_ok {folder_id : String} {u : Unit} :
    _lock_owned_folder db actor folder_id = .ok u ↔
      db.settings.folders.rows folder_id = some ⟨actor.companyId, actor.userId⟩ := require_ok

theorem lock_tag_ok {tag_id : String} {u : Unit} :
    _lock_owned_tag db actor tag_id = .ok u ↔
      db.settings.tags.rows tag_id = some ⟨actor.companyId, actor.userId⟩ := require_ok

/-- The lists of received mail. -/
inductive ReceivedList
  | inbox
  | folder (folder_id : String)
  | tag (tag_id : String)
  | spam
  deriving DecidableEq, Repr

def ReceivedList.view : ReceivedList → View
  | inbox => .inbox
  | folder _ => .folder
  | tag _ => .tag
  | spam => .spam

def ReceivedList.rows (db : Db) (actor : AuthUserSummary) : ReceivedList → Except Error (Finset RowId)
  | inbox => .ok (list_inbox db actor)
  | folder folder_id => list_folder_messages db actor folder_id
  | tag tag_id => list_tag_messages db actor tag_id
  | spam => .ok (list_spam db actor)

/-- The list of the user shows the mail. -/
def ReceivedList.Lists (b : ReceivedList) (db : Db) (actor : AuthUserSummary) (mail_id : RowId) :
    Prop :=
  ∃ rows, b.rows db actor = .ok rows ∧ Shows db rows mail_id

/-- The condition of a list on a row. -/
def ReceivedList.Holds (b : ReceivedList) (db : Db) (actor : AuthUserSummary) (id : RowId)
    (r : Recipient) : Prop :=
  match b with
  | inbox => r.is_spam = false ∧ r.folder_id = none
  | folder folder_id => r.folder_id = some folder_id ∧ r.is_spam = false ∧
      db.settings.folders.rows folder_id = some ⟨actor.companyId, actor.userId⟩
  | tag tag_id => (db.recipient_tags.rows (id, tag_id)).isSome = true ∧
      db.settings.tags.rows tag_id = some ⟨actor.companyId, actor.userId⟩
  | spam => r.is_spam = true

theorem ReceivedList.mem_iff {b : ReceivedList} {id : RowId} :
    (∃ rows, b.rows db actor = .ok rows ∧ id ∈ rows) ↔
      ∃ r m, db.recipients.rows id = some r ∧ actor.owns r = true ∧ r.live = true ∧
        db.mails.rows r.message_id = some m ∧ actor.within m = true ∧ m.status = .sent ∧
        b.Holds db actor id r := by
  have hok : ∀ {rows : Finset RowId},
      (∃ rows', (Except.ok rows : Except Error (Finset RowId)) = .ok rows' ∧ id ∈ rows') ↔
        id ∈ rows := by
    intro rows
    exact ⟨fun ⟨_, h, hid⟩ => Except.ok.inj h ▸ hid, fun hid => ⟨rows, rfl, hid⟩⟩
  cases b with
  | inbox =>
    refine hok.trans (mem_list.trans ?_)
    simp [ReceivedList.Holds, Option.isNone_iff_eq_none]
  | spam =>
    refine hok.trans (mem_list.trans ?_)
    simp [ReceivedList.Holds]
  | folder folder_id =>
    constructor
    · rintro ⟨rows, hrows, hid⟩
      obtain ⟨_, hlock, h⟩ := bind_ok.1 hrows
      cases h
      obtain ⟨r, m, hr, howns, hlive, hm, hwithin, hsent, hcontext⟩ := mem_list.1 hid
      simp only [Bool.and_eq_true, decide_eq_true_eq, Bool.not_eq_true'] at hcontext
      exact ⟨r, m, hr, howns, hlive, hm, hwithin, hsent, hcontext.1, hcontext.2,
        lock_folder_ok.1 hlock⟩
    · rintro ⟨r, m, hr, howns, hlive, hm, hwithin, hsent, hfolder, hspam, howner⟩
      exact ⟨_, bind_ok.2 ⟨(), lock_folder_ok.2 howner, rfl⟩, mem_list.2
        ⟨r, m, hr, howns, hlive, hm, hwithin, hsent, by simp [hfolder, hspam]⟩⟩
  | tag tag_id =>
    constructor
    · rintro ⟨rows, hrows, hid⟩
      obtain ⟨_, hlock, h⟩ := bind_ok.1 hrows
      cases h
      obtain ⟨r, m, hr, howns, hlive, hm, hwithin, hsent, htag⟩ := mem_list.1 hid
      exact ⟨r, m, hr, howns, hlive, hm, hwithin, hsent, htag, lock_tag_ok.1 hlock⟩
    · rintro ⟨r, m, hr, howns, hlive, hm, hwithin, hsent, htag, howner⟩
      exact ⟨_, bind_ok.2 ⟨(), lock_tag_ok.2 howner, rfl⟩, mem_list.2
        ⟨r, m, hr, howns, hlive, hm, hwithin, hsent, htag⟩⟩

theorem ReceivedList.lists_iff {b : ReceivedList} : b.Lists db actor mail_id ↔
    ∃ m, db.mails.rows mail_id = some m ∧ actor.within m = true ∧ m.status = .sent ∧
      HasRow db actor mail_id (fun id r => r.live = true ∧ b.Holds db actor id r) := by
  constructor
  · rintro ⟨rows, hrows, hshows⟩
    obtain ⟨id, hid, r, hr, rfl⟩ := (shows_iff db).1 hshows
    obtain ⟨r', m, hr', howns, hlive, hm, hwithin, hsent, hholds⟩ := mem_iff.1 ⟨rows, hrows, hid⟩
    cases hr.symm.trans hr'
    exact ⟨m, hm, hwithin, hsent, id, r, hr, rfl, howns, hlive, hholds⟩
  · rintro ⟨m, hm, hwithin, hsent, id, r, hr, rfl, howns, hlive, hholds⟩
    obtain ⟨rows, hrows, hid⟩ := mem_iff.2 ⟨r, m, hr, howns, hlive, hm, hwithin, hsent, hholds⟩
    exact ⟨rows, hrows, (shows_iff db).2 ⟨id, hid, r, hr, rfl⟩⟩

/-! ## Listed and opened -/

/-- The mail stands in one of the lists of the user. -/
inductive Listed (db : Db) (actor : AuthUserSummary) (mail_id : RowId) : Prop
  | received (b : ReceivedList) (h : b.Lists db actor mail_id)
  | trash (h : Shows db (list_trash_recipients db actor) mail_id)
  | trash_sent (h : mail_id ∈ list_trash_mails db actor)
  | sent (h : mail_id ∈ list_sent db actor)
  | drafts (h : mail_id ∈ list_drafts db actor)
  | scheduled (h : mail_id ∈ list_scheduled db actor)

/-- What the lists of the sender ask of a mail that is not in the trash. -/
def Mail.hasCopy (m : Mail) : Prop :=
  m.status = .draft ∨ m.status = .scheduled ∨ m.status = .sent ∧ m.sender_copy_saved = true

theorem mem_sender_list {status : MailStatus} :
    mail_id ∈ _list_sender_query db actor status ↔ ∃ m, db.mails.rows mail_id = some m ∧
      actor.within m = true ∧ actor.sends m = true ∧ m.status = status ∧ m.live = true ∧
      (status = .sent → m.sender_copy_saved = true) := by
  simp only [_list_sender_query, Table.mem_select, Bool.and_eq_true, Bool.or_eq_true,
    decide_eq_true_eq, and_assoc]
  simp only [ne_eq, ← imp_iff_not_or]

theorem mem_trash_mails : mail_id ∈ list_trash_mails db actor ↔ ∃ m,
    db.mails.rows mail_id = some m ∧ actor.within m = true ∧ actor.sends m = true ∧
      m.trashed = true := by
  simp only [list_trash_mails, Table.mem_select, Bool.and_eq_true, and_assoc]

/-- The lists, on the rows: the copy of the sender and the rows of the user. -/
theorem listed_iff : Listed db actor mail_id ↔ ∃ m, db.mails.rows mail_id = some m ∧
    actor.within m = true ∧
      (actor.sends m = true ∧ (m.trashed = true ∨ m.live = true ∧ m.hasCopy) ∨
        HasRow db actor mail_id (fun id r => r.trashed = true ∨
          r.live = true ∧ m.status = .sent ∧ ∃ b : ReceivedList, b.Holds db actor id r)) := by
  constructor
  · rintro (⟨b, h⟩ | h | h | h | h | h)
    · obtain ⟨m, hm, hwithin, hsent, hrow⟩ := ReceivedList.lists_iff.1 h
      exact ⟨m, hm, hwithin, .inr (hrow.mono (fun _ _ h => .inr ⟨h.1, hsent, b, h.2⟩))⟩
    · obtain ⟨m, hm, hwithin, hrow⟩ := shows_trash.1 h
      exact ⟨m, hm, hwithin, .inr (hrow.mono (fun _ _ h => .inl h))⟩
    · obtain ⟨m, hm, hwithin, hsends, htrashed⟩ := mem_trash_mails.1 h
      exact ⟨m, hm, hwithin, .inl ⟨hsends, .inl htrashed⟩⟩
    · obtain ⟨m, hm, hwithin, hsends, hstatus, hlive, hsaved⟩ := mem_sender_list.1 h
      exact ⟨m, hm, hwithin, .inl ⟨hsends, .inr ⟨hlive, .inr (.inr ⟨hstatus, hsaved rfl⟩)⟩⟩⟩
    · obtain ⟨m, hm, hwithin, hsends, hstatus, hlive, _⟩ := mem_sender_list.1 h
      exact ⟨m, hm, hwithin, .inl ⟨hsends, .inr ⟨hlive, .inl hstatus⟩⟩⟩
    · obtain ⟨m, hm, hwithin, hsends, hstatus, hlive, _⟩ := mem_sender_list.1 h
      exact ⟨m, hm, hwithin, .inl ⟨hsends, .inr ⟨hlive, .inr (.inl hstatus)⟩⟩⟩
  · rintro ⟨m, hm, hwithin, ⟨hsends, htrashed | ⟨hlive, hcopy⟩⟩ | hrow⟩
    · exact .trash_sent (mem_trash_mails.2 ⟨m, hm, hwithin, hsends, htrashed⟩)
    · rcases hcopy with hdraft | hscheduled | ⟨hsent, hsaved⟩
      · exact .drafts (mem_sender_list.2 ⟨m, hm, hwithin, hsends, hdraft, hlive, nofun⟩)
      · exact .scheduled (mem_sender_list.2 ⟨m, hm, hwithin, hsends, hscheduled, hlive, nofun⟩)
      · exact .sent (mem_sender_list.2 ⟨m, hm, hwithin, hsends, hsent, hlive, fun _ => hsaved⟩)
    · obtain ⟨id, r, hr, hmail, howns, htrashed | ⟨hlive, hsent, b, hholds⟩⟩ := hrow
      · exact .trash (shows_trash.2 ⟨m, hm, hwithin, id, r, hr, hmail, howns, htrashed⟩)
      · exact .received b (ReceivedList.lists_iff.2
          ⟨m, hm, hwithin, hsent, id, r, hr, hmail, howns, hlive, hholds⟩)

theorem Listed.openable (h : Listed db actor mail_id) : Openable db actor mail_id := by
  obtain ⟨m, hm, hwithin, hside⟩ := listed_iff.1 h
  refine openable_iff.2 ⟨m, hm, hwithin, hside.imp (fun hsender => ⟨hsender.1, ?_⟩) (fun hrow =>
    hrow.mono (fun id r h => ?_))⟩
  · exact Mail.live_or_trashed_iff.1 (hsender.2.symm.imp_left And.left)
  · exact Recipient.live_or_trashed_iff.1 (h.symm.imp_left And.left)

/-- What no list shows but the details open: a sent mail without a saved copy for its sender, a
mail that is not sent for the people on it, and a row in a folder that is not of the user. -/
inductive Unlisted (db : Db) (actor : AuthUserSummary) (mail_id : RowId) : Prop
  | copy {m : Mail} (hm : db.mails.rows mail_id = some m) (hwithin : actor.within m = true)
      (hsends : actor.sends m = true) (hlive : m.live = true)
      (hstatus : m.status = .sent ∧ m.sender_copy_saved = false ∨ m.status = .cancelled)
  | unsent {m : Mail} (hm : db.mails.rows mail_id = some m) (hwithin : actor.within m = true)
      (hstatus : m.status ≠ .sent)
      (hrow : HasRow db actor mail_id (fun _ r => r.live = true))
  | misfiled {m : Mail} (hm : db.mails.rows mail_id = some m) (hwithin : actor.within m = true)
      (hstatus : m.status = .sent)
      (hrow : HasRow db actor mail_id (fun id r => r.live = true ∧ r.is_spam = false ∧
        (∃ folder_id, r.folder_id = some folder_id ∧
          db.settings.folders.rows folder_id ≠ some ⟨actor.companyId, actor.userId⟩) ∧
        ∀ tag_id, (db.recipient_tags.rows (id, tag_id)).isSome = true →
          db.settings.tags.rows tag_id ≠ some ⟨actor.companyId, actor.userId⟩))

theorem Unlisted.openable (h : Unlisted db actor mail_id) : Openable db actor mail_id := by
  rcases h with ⟨hm, hwithin, hsends, hlive, _⟩ | ⟨hm, hwithin, _, hrow⟩ | ⟨hm, hwithin, _, hrow⟩
  · exact openable_iff.2 ⟨_, hm, hwithin, .inl ⟨hsends, Mail.live_or_trashed_iff.1 (.inl hlive)⟩⟩
  · exact openable_iff.2 ⟨_, hm, hwithin, .inr (hrow.mono (fun _ _ h =>
      Recipient.live_or_trashed_iff.1 (.inl h)))⟩
  · exact openable_iff.2 ⟨_, hm, hwithin, .inr (hrow.mono (fun _ _ h =>
      Recipient.live_or_trashed_iff.1 (.inl h.1)))⟩

/-- A row that no list of received mail shows lies in a folder that is not of the user. -/
theorem misfiled_of_not_holds {id : RowId} {r : Recipient}
    (h : ¬∃ b : ReceivedList, b.Holds db actor id r) : r.is_spam = false ∧
      (∃ folder_id, r.folder_id = some folder_id ∧
        db.settings.folders.rows folder_id ≠ some ⟨actor.companyId, actor.userId⟩) ∧
      ∀ tag_id, (db.recipient_tags.rows (id, tag_id)).isSome = true →
        db.settings.tags.rows tag_id ≠ some ⟨actor.companyId, actor.userId⟩ := by
  have hspam : r.is_spam = false := by
    by_contra hspam
    exact h ⟨.spam, by simpa [ReceivedList.Holds] using hspam⟩
  refine ⟨hspam, ?_, fun tag_id htag howner => h ⟨.tag tag_id, htag, howner⟩⟩
  cases hfolder : r.folder_id with
  | none => exact absurd ⟨.inbox, hspam, hfolder⟩ h
  | some folder_id =>
    exact ⟨folder_id, rfl, fun howner => h ⟨.folder folder_id, hfolder, hspam, howner⟩⟩

/-- A mail that opens is listed, or it is one of those that no list shows. -/
theorem Openable.listed_or_unlisted (h : Openable db actor mail_id) :
    Listed db actor mail_id ∨ Unlisted db actor mail_id := by
  obtain ⟨m, hm, hwithin, ⟨hsends, hpurged⟩ | hrow⟩ := openable_iff.1 h
  · rcases Mail.live_or_trashed_iff.2 hpurged with hlive | htrashed
    · by_cases hcopy : m.hasCopy
      · exact .inl (listed_iff.2 ⟨m, hm, hwithin, .inl ⟨hsends, .inr ⟨hlive, hcopy⟩⟩⟩)
      · refine .inr (.copy hm hwithin hsends hlive ?_)
        cases hstatus : m.status <;> simp_all [Mail.hasCopy]
    · exact .inl (listed_iff.2 ⟨m, hm, hwithin, .inl ⟨hsends, .inl htrashed⟩⟩)
  · obtain ⟨id, r, hr, hmail, howns, hpurged⟩ := hrow
    rcases Recipient.live_or_trashed_iff.2 hpurged with hlive | htrashed
    · by_cases hsent : m.status = .sent
      · by_cases hholds : ∃ b : ReceivedList, b.Holds db actor id r
        · exact .inl (listed_iff.2 ⟨m, hm, hwithin, .inr ⟨id, r, hr, hmail, howns,
            .inr ⟨hlive, hsent, hholds⟩⟩⟩)
        · exact .inr (.misfiled hm hwithin hsent ⟨id, r, hr, hmail, howns, hlive,
            misfiled_of_not_holds hholds⟩)
      · exact .inr (.unsent hm hwithin hsent ⟨id, r, hr, hmail, howns, hlive⟩)
    · exact .inl (listed_iff.2 ⟨m, hm, hwithin, .inr ⟨id, r, hr, hmail, howns, .inl htrashed⟩⟩)

/-! ## A mail opens when it is listed -/

/-- The calls with which a user works on received mail. -/
def Call.onReceived : Call → Prop
  | mark_mail_read _ => True
  | toggle_mail_star _ => True
  | set_mail_category _ _ => True
  | bulk_mail _ _ => True
  | _ => False

/-- The mail and its recipients are as before. -/
def SameMail (db db' : Db) (mail_id : RowId) : Prop :=
  db'.mails.rows mail_id = db.mails.rows mail_id ∧ ∀ id r, r.message_id = mail_id →
    (db'.recipients.rows id = some r ↔ db.recipients.rows id = some r)

/-- A draft or a scheduled mail of somebody else that is addressed to the user. -/
def UnsentTo (db : Db) (actor : AuthUserSummary) (mail_id : RowId) : Prop :=
  ∃ m, db.mails.rows mail_id = some m ∧ actor.within m = true ∧
    (m.status = .draft ∨ m.status = .scheduled) ∧ actor.sends m = false ∧
    HasRow db actor mail_id (fun _ _ => True)

/-- The user had a view of the mail and has purged all of them; a sent mail without a saved copy
is no view of its sender. -/
def AllPurged (db : Db) (actor : AuthUserSummary) (mail_id : RowId) : Prop :=
  ∃ m, db.mails.rows mail_id = some m ∧
    (m.sender_purged_at.isSome = true ∨ HasRow db actor mail_id (fun _ _ => True)) ∧
    (actor.sends m = true → m.sender_purged_at.isSome = true ∨
      m.status = .sent ∧ m.sender_copy_saved = false ∧ m.sender_deleted_at = none) ∧
    ¬HasRow db actor mail_id (fun _ r => r.purged_at = none)

structure OpensAsListed (codec : Codec) (db : Db) (actor : AuthUserSummary) (mail_id : RowId) :
    Prop where
  listed : Openable db actor mail_id ↔ Listed db actor mail_id
  unsent : UnsentTo db actor mail_id → ¬Openable db actor mail_id ∧
    ∀ call n now db', Call.onReceived call → call.perform codec db actor n now = .ok db' →
      SameMail db db' mail_id
  purged : AllPurged db actor mail_id → ¬Openable db actor mail_id

/-- The category of a row changes, whatever the status of its mail is. -/
theorem set_mail_category_changes {m : Mail} (hm : db.mails.rows mail_id = some m)
    (hwithin : actor.within m = true) (hrow : HasRow db actor mail_id (fun _ _ => True)) :
    ∃ category db', set_mail_category db actor mail_id category = .ok db' ∧
      ¬SameMail db db' mail_id := by
  obtain ⟨id, r, hr, hmail, howns, _⟩ := hrow
  obtain ⟨category, hcategory⟩ : ∃ category, r.inbox_category ≠ some category := by
    by_cases h : r.inbox_category = some .primary
    · exact ⟨.forums, by rw [h]; decide⟩
    · exact ⟨.primary, h⟩
  have hmem : id ∈ (ownRows db actor mail_id).filter (fun id =>
      (db.recipients.rows id).any (fun r => db.joined r actor.within)) := by
    rw [Finset.mem_filter, ownRows, Table.mem_select]
    exact ⟨⟨r, hr, by simp [hmail, howns]⟩, by simp [hr, Db.joined, hmail, hm, hwithin]⟩
  refine ⟨category, _, bind_ok.2 ⟨(), require_ok.2 ⟨id, hmem⟩, rfl⟩, fun h => ?_⟩
  have hsame := (h.2 id r hmail).2 hr
  rw [Table.rows_update, hr, Option.map_some, if_pos (by simpa using hmem)] at hsame
  exact hcategory (congrArg Recipient.inbox_category (Option.some.inj hsame)).symm

theorem AllPurged.not_listed (h : AllPurged db actor mail_id) : ¬Listed db actor mail_id := by
  obtain ⟨m, hm, _, hcopy, hrows⟩ := h
  intro hlisted
  obtain ⟨m', hm', _, ⟨hsends, hside⟩ | hrow⟩ := listed_iff.1 hlisted
  · cases hm.symm.trans hm'
    rcases hcopy hsends with hpurged | ⟨hsent, hsaved, hdeleted⟩
    · have hnone := Mail.live_or_trashed_iff.1 (hside.symm.imp_left And.left)
      rw [hnone] at hpurged
      cases hpurged
    · rcases hside with htrashed | ⟨_, hhas⟩
      · simp [Mail.trashed, hdeleted] at htrashed
      · simp [Mail.hasCopy, hsent, hsaved] at hhas
  · exact hrows (hrow.mono (fun _ _ h =>
      Recipient.live_or_trashed_iff.1 (h.symm.imp_left And.left)))

/-- For every state, user and mail: the mail opens just when it is listed, when what no list
shows is listed for another reason and when the mail is not one of somebody else that waits to be
sent to the user. -/
theorem opens_as_listed_iff (codec : Codec) (db : Db) (actor : AuthUserSummary) (mail_id : RowId) :
    OpensAsListed codec db actor mail_id ↔
      (Unlisted db actor mail_id → Listed db actor mail_id) ∧ ¬UnsentTo db actor mail_id := by
  constructor
  · intro h
    refine ⟨fun hunlisted => h.listed.1 hunlisted.openable, fun hunsent => ?_⟩
    have ⟨m, hm, hwithin, _, _, hrow⟩ := hunsent
    obtain ⟨category, db', hset, hchanged⟩ := set_mail_category_changes hm hwithin hrow
    exact hchanged ((h.unsent hunsent).2 (.set_mail_category mail_id category) 0 0 db' trivial hset)
  · rintro ⟨hunlisted, hunsent⟩
    have hlisted : Openable db actor mail_id ↔ Listed db actor mail_id :=
      ⟨fun h => h.listed_or_unlisted.elim (fun h => h) hunlisted, Listed.openable⟩
    exact ⟨hlisted, fun h => absurd h hunsent, fun h hopen => h.not_listed (hlisted.1 hopen)⟩

/-! ## A draft to a colleague -/

/-- An `idna` that knows no other domains than the ones in ASCII. -/
def asciiCodec : Codec := ⟨some⟩

def alice : AuthUserSummary := ⟨"alice", "moa", "alice@moa.kr"⟩

def bob : AuthUserSummary := ⟨"bob", "moa", "bob@moa.kr"⟩

/-- A company with two users, who have not set anything. -/
def twoUsers : Settings where
  companies := Table.empty.set "moa" "moa.kr"
  users := (Table.empty.set "alice" ⟨"moa", "alice@moa.kr", .active⟩).set "bob"
    ⟨"moa", "bob@moa.kr", .active⟩
  accounts := (Table.empty.set "alice" ⟨"a", "alice@moa.kr", .active⟩).set "bob"
    ⟨"b", "bob@moa.kr", .active⟩
  providers := .empty
  save_sent_copy := .empty
  spam := .empty
  classification := .empty
  forwarding := .empty
  absence := .empty
  folders := Table.empty.set "work" ⟨"moa", "bob"⟩
  tags := .empty

/-- A mail to Bob. -/
def letter : MailSendRequest where
  to_ := ["bob@moa.kr"]
  cc := []
  bcc := []
  subject := "plan"
  bodyText := "text"
  attachments := []
  scheduledAt := none
  sourceMailId := none
  copiedAttachmentIds := []
  valid_emails := by
    intro email hemail
    simp only [List.append_nil, List.mem_singleton] at hemail
    subst hemail
    exact ⟨by decide, by decide, by decide, by decide⟩
  deduped := by decide

/-- Alice has saved a draft. -/
def draftDb : Db :=
  savepoint (Db.start twoUsers) (Event.perform asciiCodec ⟨Db.start twoUsers, 0⟩ 5
    (.request alice (.save_draft letter)))

theorem reachable_draftDb : Reachable asciiCodec draftDb :=
  ⟨1, Machine.Reach.next (a := (5, .request alice (.save_draft letter)))
    (.start ⟨twoUsers, rfl⟩) trivial rfl⟩

/-- Bob opens the draft of Alice, and no list shows it to him. -/
theorem a_draft_opens_for_its_addressee : ¬∀ (codec : Codec) (db : Db) (actor : AuthUserSummary)
    (mail_id : RowId) (m : Mail), Reachable codec db → db.settings.knows actor = true →
      db.mails.rows mail_id = some m → actor.within m = true →
      OpensAsListed codec db actor mail_id := by
  intro h
  have hfacts : (draftDb.mails.rows (.mail 0)).any (fun m => bob.within m &&
      decide (m.status = .draft) && !bob.sends m && opens draftDb bob (.mail 0) .inbox m) = true := by
    decide +kernel
  obtain ⟨m, hm, hfacts⟩ := (Option.any_eq_true _ _).1 hfacts
  simp only [Bool.and_eq_true, decide_eq_true_eq, Bool.not_eq_true'] at hfacts
  obtain ⟨⟨⟨hwithin, hstatus⟩, hsends⟩, hopens⟩ := hfacts
  have htrash : list_trash_recipients draftDb bob = ∅ := by decide +kernel
  have hopen : Openable draftDb bob (.mail 0) := ⟨.inbox, m, fetch_ok.2 ⟨hm, hopens⟩⟩
  have hlisted := (h asciiCodec draftDb bob (.mail 0) m reachable_draftDb
    (by decide +kernel) hm hwithin).listed.1 hopen
  obtain ⟨m', hm'', _, ⟨hsends', _⟩ | hrow⟩ := listed_iff.1 hlisted
  · cases hm.symm.trans hm''
    rw [hsends] at hsends'
    cases hsends'
  · cases hm.symm.trans hm''
    obtain ⟨id, r, hr, hmessage, howns, htrashed | ⟨_, hsent, _⟩⟩ := hrow
    · have hshows := shows_trash.2 ⟨m, hm, hwithin, id, r, hr, hmessage, howns, htrashed⟩
      rw [htrash] at hshows
      obtain ⟨_, hid, _⟩ := hshows
      exact absurd hid (Finset.notMem_empty _)
    · rw [hstatus] at hsent
      cases hsent

/-! ## Using received mail -/

/-- Each operation on a received mail passes its check, for the files `stored` in the storage. -/
structure Usable (db : Db) (actor : AuthUserSummary) (stored : String → Bool) (mail_id : RowId) :
    Prop where
  download : ∀ attachment_id row, db.attachments.rows attachment_id = some row →
    row.message_id = mail_id → row.inline = false → row.storage_key.any stored = true →
    download_attachment db actor stored mail_id attachment_id = .ok row
  read : ∀ now, ∃ db', mark_mail_read db actor mail_id now = .ok db'
  star : ∃ db', toggle_mail_star db actor mail_id = .ok db'
  reply : checkSource db actor (some mail_id) [] = .ok []
  forward : ∀ attachment_ids, (∀ id ∈ attachment_ids, ∃ row, db.attachments.rows id = some row ∧
    row.message_id = mail_id ∧ row.storage_key.isSome = true) →
    ∃ rows, checkSource db actor (some mail_id) attachment_ids = .ok rows

theorem updateOwn_ok {f : Recipient → Recipient} {message : String} {m : Mail}
    (hfetch : _fetch_accessible_mail db actor mail_id .inbox = .ok m)
    (hrow : HasRow db actor mail_id (fun _ _ => True)) :
    ∃ db', updateOwn db actor mail_id f message = .ok db' := by
  obtain ⟨id, r, hr, hmail, howns, _⟩ := hrow
  have hmem : id ∈ ownRows db actor mail_id := by
    rw [ownRows, Table.mem_select]
    exact ⟨r, hr, by simp [hmail, howns]⟩
  exact ⟨_, bind_ok.2 ⟨m, hfetch, bind_ok.2 ⟨(), require_ok.2 ⟨id, hmem⟩, rfl⟩⟩⟩

theorem source_attachments_ok {m : Mail} {attachment_ids : List RowId}
    (hfetch : _fetch_accessible_mail db actor mail_id .inbox = .ok m)
    (h : ∀ id ∈ attachment_ids, ∃ row, db.attachments.rows id = some row ∧
      row.message_id = mail_id ∧ row.storage_key.isSome = true) :
    ∃ rows, _fetch_source_attachments db actor mail_id attachment_ids = .ok rows := by
  have hall : ∀ id ∈ attachment_ids, ∃ row, sourceAttachment db mail_id id = .ok row := by
    intro id hid
    obtain ⟨row, hrow, hmail, hkey⟩ := h id hid
    exact ⟨row, bind_ok.2 ⟨row, found_ok.2 (by simp [hrow, hmail]),
      bind_ok.2 ⟨(), require_ok.2 hkey, rfl⟩⟩⟩
  obtain ⟨rows, hrows⟩ := mapM_ok_of_all hall
  exact ⟨rows, bind_ok.2 ⟨m, hfetch, hrows⟩⟩

/-- All the operations ask for the view of the inbox. -/
theorem usable_of_fetch {stored : String → Bool} {m : Mail}
    (hfetch : _fetch_accessible_mail db actor mail_id .inbox = .ok m)
    (hrow : HasRow db actor mail_id (fun _ _ => True)) : Usable db actor stored mail_id where
  download := by
    intro attachment_id row hattachment hmail hinline hstored
    exact bind_ok.2 ⟨m, hfetch, bind_ok.2 ⟨row, found_ok.2 (by simp [hattachment, hmail, hinline]),
      bind_ok.2 ⟨(), require_ok.2 hstored, rfl⟩⟩⟩
  read := fun now => updateOwn_ok hfetch hrow
  star := updateOwn_ok hfetch hrow
  reply := bind_ok.2 ⟨m, hfetch, rfl⟩
  forward := by
    intro attachment_ids h
    unfold checkSource
    dsimp only
    split_ifs
    · exact source_attachments_ok hfetch h
    · exact ⟨[], bind_ok.2 ⟨m, hfetch, rfl⟩⟩

theorem ReceivedList.Lists.opens {b : ReceivedList} (h : b.Lists db actor mail_id) :
    ∃ m, get_mail db actor mail_id b.view = .ok m := by
  obtain ⟨m, hm, hwithin, _, hrow⟩ := ReceivedList.lists_iff.1 h
  refine ⟨m, fetch_ok.2 ⟨hm, opens_iff.2 ⟨hwithin, ?_, .inr (hrow.mono (fun id r h => ?_))⟩⟩⟩
  · cases b <;> exact nofun
  · obtain ⟨hlive, hholds⟩ := h
    cases b with
    | inbox => simp [ReceivedList.view, recipient_state, hlive, hholds.1, hholds.2]
    | folder _ => exact hlive
    | tag _ => exact hlive
    | spam =>
      have hspam : r.is_spam = true := hholds
      simp [ReceivedList.view, recipient_state, hlive, hspam]

/-- For every state and user, and every mail that a list of received mail shows: its details open
in the view of the list; and all the operations on it pass just when the user also has a row of it
that is neither filed nor spam, or is its sender. -/
theorem listed_mail_is_usable_iff (db : Db) (actor : AuthUserSummary) (stored : String → Bool)
    (b : ReceivedList) (mail_id : RowId) (h : b.Lists db actor mail_id) :
    (∃ m, get_mail db actor mail_id b.view = .ok m) ∧ (Usable db actor stored mail_id ↔
      (HasRow db actor mail_id (fun _ r => r.live = true ∧ r.is_spam = false ∧ r.folder_id = none) ∨
        ∃ m, db.mails.rows mail_id = some m ∧ actor.sends m = true ∧ m.live = true)) := by
  refine ⟨h.opens, ?_⟩
  obtain ⟨m, hm, hwithin, _, hrow⟩ := ReceivedList.lists_iff.1 h
  have hstate : ∀ r : Recipient, recipient_state .inbox r = true ↔
      r.live = true ∧ r.is_spam = false ∧ r.folder_id = none := by
    intro r
    simp [recipient_state, Option.isNone_iff_eq_none, and_assoc]
  constructor
  · intro husable
    obtain ⟨_, hread⟩ := husable.read 0
    obtain ⟨m', hfetch, _⟩ := bind_ok.1 hread
    obtain ⟨hm', hopens⟩ := fetch_ok.1 hfetch
    rcases (opens_iff.1 hopens).2.2 with ⟨hsends, hlive⟩ | hinbox
    · exact .inr ⟨m', hm', hsends, hlive⟩
    · exact .inl (hinbox.mono (fun _ r => (hstate r).1))
  · intro hinbox
    refine usable_of_fetch (m := m) (fetch_ok.2 ⟨hm, opens_iff.2 ⟨hwithin, nofun, ?_⟩⟩)
      (hrow.mono (fun _ _ _ => trivial))
    rcases hinbox with hinbox | ⟨m', hm', hsends, hlive⟩
    · exact .inr (hinbox.mono (fun _ r => (hstate r).2))
    · cases hm.symm.trans hm'
      exact .inl ⟨hsends, hlive⟩

/-- The first row, chosen. -/
noncomputable def firstRow : FirstRow where
  pick rows := open Classical in if h : rows.Nonempty then some h.choose else none
  mem := by
    intro rows id h
    split_ifs at h with hrows
    cases h
    exact hrows.choose_spec
  some_of_nonempty := by
    intro rows h
    rw [dif_pos h]
    rfl

/-- Bob files the mail. -/
def filing : MailBulkRequest where
  mailIds := [.mail 0]
  action := .move_folder
  mailbox := .inbox
  targetCategory := none
  targetFolderId := some "work"
  targetTagId := none
  trashViews := none
  distinct := by decide

def sentDb : Db :=
  savepoint (Db.start twoUsers) (Event.perform asciiCodec ⟨Db.start twoUsers, 0⟩ 5
    (.request alice (.send_mail letter)))

noncomputable def filedDb : Db :=
  savepoint sentDb (Event.perform asciiCodec ⟨sentDb, 1⟩ 6
    (.request bob (.bulk_mail firstRow filing)))

theorem reachable_filedDb : Reachable asciiCodec filedDb :=
  ⟨2, Machine.Reach.next (a := (6, .request bob (.bulk_mail firstRow filing)))
    (.next (a := (5, .request alice (.send_mail letter))) (.start ⟨twoUsers, rfl⟩) trivial rfl)
    trivial rfl⟩

theorem filed_is_listed : (ReceivedList.folder "work").Lists filedDb bob (.mail 0) := by
  have hshows : ((list_folder_messages filedDb bob "work").toOption.any
      (fun rows => decide (Shows filedDb rows (.mail 0)))) = true := by
    decide
  obtain ⟨rows, hrows, hshows⟩ := (Option.any_eq_true _ _).1 hshows
  exact ⟨rows, Raise.ok_of_toOption hrows, by simpa using hshows⟩

theorem a_mail_in_the_inbox_is_usable :
    (∃ m, get_mail sentDb bob (.mail 0) .inbox = .ok m) ∧
      (Usable sentDb bob (fun _ => true) (.mail 0) ↔
        (HasRow sentDb bob (.mail 0)
            (fun _ r => r.live = true ∧ r.is_spam = false ∧ r.folder_id = none) ∨
          ∃ m, sentDb.mails.rows (.mail 0) = some m ∧ bob.sends m = true ∧ m.live = true)) :=
  listed_mail_is_usable_iff sentDb bob (fun _ => true) .inbox (.mail 0)
    ⟨list_inbox sentDb bob, rfl, by decide +kernel⟩

/-- A mail that Bob has put into his folder cannot be marked as read any more. -/
theorem a_filed_mail_is_not_usable : ¬∀ (codec : Codec) (db : Db) (actor : AuthUserSummary)
    (stored : String → Bool) (b : ReceivedList) (mail_id : RowId), Reachable codec db →
      db.settings.knows actor = true → b.Lists db actor mail_id →
      (∃ m, get_mail db actor mail_id b.view = .ok m) ∧ Usable db actor stored mail_id := by
  intro h
  have husable := (h asciiCodec filedDb bob (fun _ => true) (.folder "work") (.mail 0)
    reachable_filedDb (by decide +kernel) filed_is_listed).2
  obtain ⟨db', hread⟩ := husable.read 7
  have hfails : (mark_mail_read filedDb bob (.mail 0) 7).isOk = false := by decide +kernel
  rw [hread] at hfails
  cases hfails

end moaworks.mail_messenger_service
