-- What a bulk action does to the rows that a list shows, and to the rows of the same mails that
-- it does not show.
import MoaWorks.MailAccess

namespace moaworks.mail_messenger_service

open mail_policies (Codec Error)
open Raise (bind_ok found_ok require_ok)

variable {db : Db} {actor : AuthUserSummary} {payload : MailBulkRequest} {now : Time}
  {first : FirstRow}
variable {id : RowId} {b : ReceivedList}

/-! ## What the user sees -/

/-- A mailbox as it is shown, a folder or a tag with its id. -/
inductive Box
  | received (b : ReceivedList)
  | sent
  | draft
  | trash
  deriving DecidableEq, Repr

def Box.mailbox : Box → Mailbox
  | received .inbox => .inbox
  | received (.folder _) => .folder
  | received (.tag _) => .tag
  | received .spam => .spam
  | sent => .sent
  | draft => .draft
  | trash => .trash

def MailBulkRequest.views (payload : MailBulkRequest) : List MailTrashSelection :=
  payload.trashViews.getD []

/-- `source_mailbox` of the sent part of the trash. -/
def Mail.source_mailbox (m : Mail) : SourceMailbox := if m.status = .draft then .draft else .sent

/-- The selected mails, or views of the trash, are shown. -/
def Box.Shown (box : Box) (db : Db) (actor : AuthUserSummary) (payload : MailBulkRequest) : Prop :=
  match box with
  | received b => ∀ mail_id ∈ payload.mailIds, b.Lists db actor mail_id
  | sent => ∀ mail_id ∈ payload.mailIds, mail_id ∈ list_sent db actor
  | draft => ∀ mail_id ∈ payload.mailIds, mail_id ∈ list_drafts db actor
  | trash => ∀ view ∈ payload.views,
      match view.sourceMailbox with
      | .inbox => Shows db (list_trash_recipients db actor) view.mailId
      | source => view.mailId ∈ list_trash_mails db actor ∧
          ∀ m, db.mails.rows view.mailId = some m → m.source_mailbox = source

/-- A row of `mail_recipients` that the mailbox shows for the selected mails. -/
def Box.ShowsRow (box : Box) (db : Db) (actor : AuthUserSummary) (payload : MailBulkRequest)
    (id : RowId) : Prop :=
  match box with
  | received b => (∃ rows, b.rows db actor = .ok rows ∧ id ∈ rows) ∧
      ∀ r, db.recipients.rows id = some r → r.message_id ∈ payload.mailIds
  | trash => id ∈ list_trash_recipients db actor ∧
      ∀ r, db.recipients.rows id = some r → ⟨r.message_id, .inbox⟩ ∈ payload.views
  | _ => False

/-- A row of `mail_messages` that the mailbox shows and that is selected. -/
def Box.ShowsMail (box : Box) (db : Db) (actor : AuthUserSummary) (payload : MailBulkRequest)
    (id : RowId) : Prop :=
  match box with
  | received _ => False
  | sent => id ∈ payload.mailIds ∧ id ∈ list_sent db actor
  | draft => id ∈ payload.mailIds ∧ id ∈ list_drafts db actor
  | trash => id ∈ list_trash_mails db actor ∧
      ∀ m, db.mails.rows id = some m → ⟨id, m.source_mailbox⟩ ∈ payload.views

def MailBulkRequest.TargetsOwned (payload : MailBulkRequest) (db : Db) (actor : AuthUserSummary) :
    Prop :=
  (∀ folder_id, payload.targetFolderId = some folder_id →
    db.settings.folders.rows folder_id = some ⟨actor.companyId, actor.userId⟩) ∧
  ∀ tag_id, payload.targetTagId = some tag_id →
    db.settings.tags.rows tag_id = some ⟨actor.companyId, actor.userId⟩

/-! ## What the user asks for -/

/-- The row is in the state that the action is for. -/
def MailBulkRequest.Reached (payload : MailBulkRequest) (db : Db) (id : RowId) (r : Recipient) :
    Prop :=
  match payload.action with
  | .read => r.is_read = true
  | .unread => r.is_read = false
  | .star => r.is_starred = true
  | .unstar => r.is_starred = false
  | .move => some r.category = payload.targetCategory
  | .delete => r.deleted_at.isSome = true
  | .move_folder => r.folder_id = payload.targetFolderId
  | .add_tag => (db.recipient_tags.rows (id, payload.targetTagId.getD "")).isSome = true
  | .remove_tag => db.recipient_tags.rows (id, payload.targetTagId.getD "") = none
  | .spam => r.is_spam = true
  | .not_spam => r.is_spam = false
  | .restore => r.deleted_at = none
  | .purge => r.purged_at.isSome = true

def MailBulkRequest.ReachedCopy (payload : MailBulkRequest) (m : Mail) : Prop :=
  match payload.action with
  | .restore => m.sender_deleted_at = none
  | .purge => m.sender_purged_at.isSome = true
  | _ => m.sender_deleted_at.isSome = true

/-- The action takes what it reaches out of the mailbox. -/
def Box.MovesOut (box : Box) (payload : MailBulkRequest) : Prop :=
  match box, payload.action with
  | received _, .delete => True
  | received .inbox, .move_folder => True
  | received (.folder folder_id), .move_folder => payload.targetFolderId ≠ some folder_id
  | received .inbox, .spam => True
  | received (.folder _), .spam => True
  | received (.tag tag_id), .remove_tag => payload.targetTagId = some tag_id
  | received .spam, .not_spam => True
  | received _, _ => False
  | _, _ => True

/-- The tables after an action that reaches what the mailbox showed, and nothing else. -/
structure ActsExactly (box : Box) (actor : AuthUserSummary) (payload : MailBulkRequest)
    (db db' : Db) : Prop where
  rows : ∀ id, box.ShowsRow db actor payload id →
    ∃ r, db'.recipients.rows id = some r ∧ payload.Reached db' id r
  mails : ∀ id, box.ShowsMail db actor payload id →
    ∃ m, db'.mails.rows id = some m ∧ payload.ReachedCopy m
  moved : box.MovesOut payload → ∀ id,
    (box.ShowsRow db actor payload id → ¬box.ShowsRow db' actor payload id) ∧
    (box.ShowsMail db actor payload id → ¬box.ShowsMail db' actor payload id)
  other_rows : ∀ id, ¬box.ShowsRow db actor payload id →
    db'.recipients.rows id = db.recipients.rows id
  other_mails : ∀ id, ¬box.ShowsMail db actor payload id → db'.mails.rows id = db.mails.rows id

/-! ## The contract -/

structure Contract (payload : MailBulkRequest) : Prop where
  allowed : payload.action ∈ payload.mailbox.allowed
  category : payload.action = .move → payload.targetCategory.isSome = true
  folder : payload.action = .move_folder → payload.targetFolderId.isSome = true
  tag : payload.action = .add_tag ∨ payload.action = .remove_tag →
    payload.targetTagId.isSome = true

theorem contract_of_ok {u : Unit} (h : payload.validate_contract = .ok u) : Contract payload := by
  obtain ⟨_, hallowed, h⟩ := bind_ok.1 h
  obtain ⟨_, hcategory, h⟩ := bind_ok.1 h
  obtain ⟨_, _, h⟩ := bind_ok.1 h
  obtain ⟨_, hfolder, h⟩ := bind_ok.1 h
  obtain ⟨_, _, h⟩ := bind_ok.1 h
  obtain ⟨_, htag, _⟩ := bind_ok.1 h
  have hsome : ∀ {x : Option String}, x.any (· ≠ "") = true → x.isSome = true := by
    intro x hx
    cases x with
    | none => cases hx
    | some _ => rfl
  exact ⟨require_ok.1 hallowed, require_ok.1 hcategory,
    fun h => hsome (require_ok.1 hfolder h), fun h => hsome (require_ok.1 htag h)⟩

theorem targets_lock (h : payload.TargetsOwned db actor) :
    payload.targetFolderId.forM (_lock_owned_folder db actor) = .ok () ∧
      payload.targetTagId.forM (_lock_owned_tag db actor) = .ok () := by
  constructor
  · cases hfolder : payload.targetFolderId with
    | none => rfl
    | some folder_id => exact lock_folder_ok.2 (h.1 folder_id hfolder)
  · cases htag : payload.targetTagId with
    | none => rfl
    | some tag_id => exact lock_tag_ok.2 (h.2 tag_id htag)

/-! ## Rows -/

theorem mem_selectedRows {p : Mail → Bool} {context : Recipient → Bool} :
    id ∈ selectedRows db actor payload p context ↔
      ∃ r m, db.recipients.rows id = some r ∧ r.message_id ∈ payload.mailIds ∧
        db.mails.rows r.message_id = some m ∧ actor.within m = true ∧ p m = true ∧
        actor.owns r = true ∧ context r = true := by
  simp only [selectedRows, Table.mem_select, Db.joined, Bool.and_eq_true, Option.any_eq_true,
    decide_eq_true_eq]
  constructor
  · rintro ⟨r, hr, ⟨⟨hmail, m, hm, hwithin, hp⟩, howns⟩, hcontext⟩
    exact ⟨r, m, hr, hmail, hm, hwithin, hp, howns, hcontext⟩
  · rintro ⟨r, m, hr, hmail, hm, hwithin, hp, howns, hcontext⟩
    exact ⟨r, hr, ⟨⟨hmail, m, hm, hwithin, hp⟩, howns⟩, hcontext⟩

theorem Box.showsRow_received :
    (Box.received b).ShowsRow db actor payload id ↔
      ∃ r m, db.recipients.rows id = some r ∧ r.message_id ∈ payload.mailIds ∧
        actor.owns r = true ∧ r.live = true ∧ db.mails.rows r.message_id = some m ∧
        actor.within m = true ∧ m.status = .sent ∧ b.Holds db actor id r := by
  simp only [Box.ShowsRow, ReceivedList.mem_iff]
  constructor
  · rintro ⟨⟨r, m, hr, howns, hlive, hm, hwithin, hsent, hholds⟩, hmail⟩
    exact ⟨r, m, hr, hmail r hr, howns, hlive, hm, hwithin, hsent, hholds⟩
  · rintro ⟨r, m, hr, hmail, howns, hlive, hm, hwithin, hsent, hholds⟩
    refine ⟨⟨r, m, hr, howns, hlive, hm, hwithin, hsent, hholds⟩, fun r' hr' => ?_⟩
    cases hr.symm.trans hr'
    exact hmail

/-- The context of a mailbox holds of all that it shows. -/
theorem ReceivedList.Holds.context {r : Recipient} (h : b.Holds db actor id r)
    (hlive : r.live = true) : (Box.received b).mailbox.context r = true := by
  cases b with
  | inbox => exact hlive
  | folder folder_id =>
    have hspam : r.is_spam = false := h.2.1
    simp [Box.mailbox, Mailbox.context, hlive, hspam]
  | tag tag_id => exact hlive
  | spam =>
    have hspam : r.is_spam = true := h
    simp [Box.mailbox, Mailbox.context, hlive, hspam]

/-- The actions that write the row itself. -/
def MailBulkRequest.Updates (payload : MailBulkRequest) : Prop :=
  payload.action ≠ .add_tag ∧ payload.action ≠ .remove_tag

theorem Contract.reached_write (h : Contract payload) (hupdates : payload.Updates) (db : Db)
    (id : RowId) (r : Recipient) : payload.Reached db id (payload.write now r) := by
  cases haction : payload.action with
  | add_tag => exact absurd haction hupdates.1
  | remove_tag => exact absurd haction hupdates.2
  | move =>
    obtain ⟨category, hcategory⟩ := Option.isSome_iff_exists.1 (h.category haction)
    simp [MailBulkRequest.Reached, MailBulkRequest.write, haction, Recipient.category, hcategory]
  | _ => simp [MailBulkRequest.Reached, MailBulkRequest.write, haction]

/-- What `bulk_mail` does not write again is in the state that the action is for. -/
theorem reached_of_unchanged {r : Recipient} (hfiled : ¬payload.filed) (db : Db) (id : RowId)
    (h : payload.unchanged r = true) : payload.Reached db id r := by
  cases haction : payload.action <;>
    simp_all [MailBulkRequest.filed, MailBulkRequest.Reached, MailBulkRequest.unchanged]

/-- A row that the action has moved out is not shown any more. -/
theorem not_holds_write {r : Recipient} {db' : Db} (hupdates : payload.Updates)
    (hcontract : Contract payload) (hmoves : (Box.received b).MovesOut payload) :
    ¬((payload.write now r).live = true ∧ b.Holds db' actor id (payload.write now r)) := by
  rintro ⟨hlive, hholds⟩
  have htarget := hcontract.folder
  cases haction : payload.action with
  | add_tag => exact absurd haction hupdates.1
  | remove_tag => exact absurd haction hupdates.2
  | _ =>
    cases b <;>
      simp_all [Box.MovesOut, MailBulkRequest.write, ReceivedList.Holds, Recipient.live]

/-! ## The received mailboxes, by `_bulk_mail_ui020` -/

/-- The rows that the context of the mailbox selects. -/
def contextRows (db : Db) (actor : AuthUserSummary) (payload : MailBulkRequest) : Finset RowId :=
  selectedRows db actor payload (fun _ => true) payload.mailbox.context

theorem shown_in_context (hmailbox : payload.mailbox = (Box.received b).mailbox)
    (h : (Box.received b).ShowsRow db actor payload id) : id ∈ contextRows db actor payload := by
  obtain ⟨r, m, hr, hmail, howns, hlive, hm, hwithin, _, hholds⟩ := Box.showsRow_received.1 h
  exact mem_selectedRows.2 ⟨r, m, hr, hmail, hm, hwithin, rfl, howns,
    by rw [hmailbox]; exact hholds.context hlive⟩

theorem filed_ok (hmailbox : payload.mailbox = (Box.received b).mailbox)
    (hcontract : payload.validate_contract = .ok ()) (hfiled : payload.filed)
    (howned : payload.TargetsOwned db actor) (hshown : (Box.received b).Shown db actor payload) :
    bulk_mail db actor first payload now =
      .ok (writeRows db payload (contextRows db actor payload) now) := by
  have htrash : payload.mailbox ≠ .trash := by
    rw [hmailbox]
    cases b <;> simp [Box.mailbox]
  have hshows : ∀ mail_id ∈ payload.mailIds, Shows db (contextRows db actor payload) mail_id := by
    intro mail_id hmem
    obtain ⟨m, hm, hwithin, hsent, id, r, hr, rfl, howns, hlive, hholds⟩ :=
      ReceivedList.lists_iff.1 (hshown mail_id hmem)
    exact (shows_iff db).2 ⟨id, shown_in_context hmailbox (Box.showsRow_received.2
      ⟨r, m, hr, hmem, howns, hlive, hm, hwithin, hsent, hholds⟩), r, hr, rfl⟩
  obtain ⟨hfolder, htag⟩ := targets_lock howned
  have hui020 : _bulk_mail_ui020 db actor first payload now =
      .ok (writeRows db payload (contextRows db actor payload) now) := by
    unfold _bulk_mail_ui020
    rw [if_neg htrash]
    exact bind_ok.2 ⟨(), hfolder, bind_ok.2 ⟨(), htag,
      bind_ok.2 ⟨(), require_ok.2 hshows, rfl⟩⟩⟩
  refine bind_ok.2 ⟨(), hcontract, ?_⟩
  rw [if_pos hfiled]
  exact hui020

/-- The UPDATE behind an action, on the rows that the context selects. -/
def updateRows (db : Db) (payload : MailBulkRequest) (rows : Finset RowId) (now : Time) : Db :=
  let recipients := db.recipients.update (fun id _ => decide (id ∈ rows)) (payload.write now)
  { db with recipients := recipients }

theorem updateRows_rows {rows : Finset RowId} :
    (updateRows db payload rows now).recipients.rows id =
      (db.recipients.rows id).map (fun r => if id ∈ rows then payload.write now r else r) := by
  simp [updateRows]

/-- An UPDATE of the rows of the context acts exactly when it leaves the others of them as they
are. -/
theorem updateRows_acts_iff (hmailbox : payload.mailbox = (Box.received b).mailbox)
    (hcontract : Contract payload) (hupdates : payload.Updates) :
    ActsExactly (.received b) actor payload db
        (updateRows db payload (contextRows db actor payload) now) ↔
      ∀ id ∈ contextRows db actor payload, ¬(Box.received b).ShowsRow db actor payload id →
        ∀ r, db.recipients.rows id = some r → payload.write now r = r := by
  constructor
  · intro h id hid hshown r hr
    have hsame := h.other_rows id hshown
    rw [updateRows_rows, hr, Option.map_some, if_pos hid] at hsame
    exact Option.some.inj hsame
  · intro h
    refine ⟨fun id hshown => ?_, nofun, fun hmoves id => ⟨fun hshown hstill => ?_, nofun⟩,
      fun id hshown => ?_, fun _ _ => rfl⟩
    · obtain ⟨r, m, hr, _⟩ := Box.showsRow_received.1 hshown
      refine ⟨payload.write now r, ?_, hcontract.reached_write hupdates _ id r⟩
      rw [updateRows_rows, hr, Option.map_some, if_pos (shown_in_context hmailbox hshown)]
    · obtain ⟨r, m, hr, _⟩ := Box.showsRow_received.1 hshown
      obtain ⟨r', _, hr', _, _, hlive, _, _, _, hholds⟩ := Box.showsRow_received.1 hstill
      rw [updateRows_rows, hr, Option.map_some, if_pos (shown_in_context hmailbox hshown)] at hr'
      cases hr'
      exact not_holds_write hupdates hcontract hmoves ⟨hlive, hholds⟩
    · rw [updateRows_rows]
      cases hr : db.recipients.rows id with
      | none => rfl
      | some r =>
        rw [Option.map_some]
        split_ifs with hid
        · rw [h id hid hshown r hr]
        · rfl

theorem add_tag_acts (haction : payload.action = .add_tag)
    (hmailbox : payload.mailbox = (Box.received b).mailbox) :
    ActsExactly (.received b) actor payload db
      (writeRows db payload (contextRows db actor payload) now) := by
  have hwrite : writeRows db payload (contextRows db actor payload) now = { db with
      recipient_tags := db.recipient_tags.insertAll ((contextRows db actor payload).image
        (fun id => (id, payload.targetTagId.getD ""))) now } := by
    simp [writeRows, haction]
  rw [hwrite]
  refine ⟨fun id hshown => ?_, nofun, fun hmoves => ?_, fun _ _ => rfl, fun _ _ => rfl⟩
  · obtain ⟨r, m, hr, _⟩ := Box.showsRow_received.1 hshown
    refine ⟨r, hr, ?_⟩
    have hid := shown_in_context hmailbox hshown
    simp [MailBulkRequest.Reached, haction, hid]
  · cases b <;> simp [Box.MovesOut, haction] at hmoves

theorem remove_tag_acts (haction : payload.action = .remove_tag)
    (hmailbox : payload.mailbox = (Box.received b).mailbox) :
    ActsExactly (.received b) actor payload db
      (writeRows db payload (contextRows db actor payload) now) := by
  have hwrite : writeRows db payload (contextRows db actor payload) now = { db with
      recipient_tags := db.recipient_tags.filter (fun key _ =>
        !(decide (key.1 ∈ contextRows db actor payload) &&
          decide (key.2 = payload.targetTagId.getD ""))) } := by
    simp [writeRows, haction]
  have hgone : ∀ id, id ∈ contextRows db actor payload →
      (writeRows db payload (contextRows db actor payload) now).recipient_tags.rows
        (id, payload.targetTagId.getD "") = none := by
    intro id hid
    rw [hwrite]
    cases htag : db.recipient_tags.rows (id, payload.targetTagId.getD "") <;> simp [htag, hid]
  have hrecipients : (writeRows db payload (contextRows db actor payload) now).recipients =
      db.recipients := by rw [hwrite]
  have hmails : (writeRows db payload (contextRows db actor payload) now).mails = db.mails := by
    rw [hwrite]
  refine ⟨fun id hshown => ?_, nofun, fun hmoves id => ⟨fun hshown hstill => ?_, nofun⟩,
    fun id _ => by rw [hrecipients], fun id _ => by rw [hmails]⟩
  · obtain ⟨r, m, hr, _⟩ := Box.showsRow_received.1 hshown
    refine ⟨r, by rw [hrecipients, hr], ?_⟩
    simpa [MailBulkRequest.Reached, haction] using hgone id (shown_in_context hmailbox hshown)
  · cases b with
    | tag tag_id =>
      have htarget : payload.targetTagId = some tag_id := by
        simpa [Box.MovesOut, haction] using hmoves
      obtain ⟨_, _, _, _, _, _, _, _, _, htag, _⟩ := Box.showsRow_received.1 hstill
      have hnone := hgone id (shown_in_context hmailbox hshown)
      rw [htarget, Option.getD_some] at hnone
      rw [hnone] at htag
      cases htag
    | _ => simp [Box.MovesOut, haction] at hmoves

/-- There is no branch for the states of a row, which then has to be in them before. -/
theorem no_branch_acts_iff (haction : payload.action ∈ [Action.read, .unread, .star, .unstar]) :
    ActsExactly (.received b) actor payload db db ↔
      ∀ id, (Box.received b).ShowsRow db actor payload id →
        ∀ r, db.recipients.rows id = some r → payload.unchanged r = true := by
  have hreached : ∀ id r, payload.Reached db id r ↔ payload.unchanged r = true := by
    intro id r
    cases h : payload.action <;>
      simp_all [MailBulkRequest.Reached, MailBulkRequest.unchanged]
  constructor
  · intro h id hshown r hr
    obtain ⟨r', hr', hreach⟩ := h.rows id hshown
    cases hr.symm.trans hr'
    exact (hreached id r).1 hreach
  · intro h
    refine ⟨fun id hshown => ?_, nofun, fun hmoves => ?_, fun _ _ => rfl, fun _ _ => rfl⟩
    · obtain ⟨r, m, hr, _⟩ := Box.showsRow_received.1 hshown
      exact ⟨r, hr, (hreached id r).2 (h id hshown r hr)⟩
    · cases b <;> cases h : payload.action <;> simp_all [Box.MovesOut]

/-! ## The inbox, by `bulk_mail` itself -/

theorem mem_ownRows {mail_id : RowId} : id ∈ ownRows db actor mail_id ↔
    ∃ r, db.recipients.rows id = some r ∧ r.message_id = mail_id ∧ actor.owns r = true := by
  simp [ownRows, Table.mem_select]

/-- The user has one row of each selected mail. -/
def OneRowEach (db : Db) (actor : AuthUserSummary) (payload : MailBulkRequest) : Prop :=
  ∀ mail_id ∈ payload.mailIds, ∀ id ∈ ownRows db actor mail_id, ∀ id' ∈ ownRows db actor mail_id,
    id = id'

/-- The rows that `bulk_mail` locks for the received mail. -/
def inboxRows (db : Db) (actor : AuthUserSummary) (payload : MailBulkRequest) : Finset RowId :=
  selectedRows db actor payload (fun m => decide (m.status = .sent)) (fun _ => true)

theorem mem_inboxRows (hshown : (Box.received .inbox).Shown db actor payload) :
    id ∈ inboxRows db actor payload ↔ ∃ mail_id ∈ payload.mailIds, id ∈ ownRows db actor mail_id := by
  rw [inboxRows, mem_selectedRows]
  constructor
  · rintro ⟨r, m, hr, hmail, _, _, _, howns, _⟩
    exact ⟨r.message_id, hmail, mem_ownRows.2 ⟨r, hr, rfl, howns⟩⟩
  · rintro ⟨mail_id, hmem, hown⟩
    obtain ⟨r, hr, rfl, howns⟩ := mem_ownRows.1 hown
    obtain ⟨m, hm, hwithin, hsent, _⟩ := ReceivedList.lists_iff.1 (hshown r.message_id hmem)
    exact ⟨r, m, hr, hmem, hm, hwithin, by simp [hsent], howns, rfl⟩

theorem inboxRows_show (hshown : (Box.received .inbox).Shown db actor payload) :
    ∀ mail_id ∈ payload.mailIds, Shows db (inboxRows db actor payload) mail_id := by
  intro mail_id hmem
  obtain ⟨_, _, _, _, id, r, hr, rfl, howns, _⟩ := ReceivedList.lists_iff.1 (hshown mail_id hmem)
  exact (shows_iff db).2 ⟨id, (mem_inboxRows hshown).2
    ⟨r.message_id, hmem, mem_ownRows.2 ⟨r, hr, rfl, howns⟩⟩, r, hr, rfl⟩

/-- As many rows as mails are locked when each mail has one row. -/
theorem card_inboxRows_iff (hshown : (Box.received .inbox).Shown db actor payload) :
    (inboxRows db actor payload).card = payload.mailIds.length ↔ OneRowEach db actor payload := by
  let message := fun id => (db.recipients.rows id).map Recipient.message_id
  have himage : (inboxRows db actor payload).image message = payload.mailIds.toFinset.image some := by
    ext mail_id
    simp only [Finset.mem_image, List.mem_toFinset]
    constructor
    · rintro ⟨id, hid, rfl⟩
      obtain ⟨_, hmem, hown⟩ := (mem_inboxRows hshown).1 hid
      obtain ⟨r, hr, rfl, _⟩ := mem_ownRows.1 hown
      exact ⟨r.message_id, hmem, by simp [message, hr]⟩
    · rintro ⟨mail_id, hmem, rfl⟩
      obtain ⟨id, hid, r, hr, rfl⟩ := (shows_iff db).1 (inboxRows_show hshown mail_id hmem)
      exact ⟨id, hid, by simp [message, hr]⟩
  have hlength : ((inboxRows db actor payload).image message).card = payload.mailIds.length := by
    rw [himage, Finset.card_image_of_injective _ (Option.some_injective _),
      List.toFinset_card_of_nodup payload.distinct]
  rw [← hlength, eq_comm, Finset.card_image_iff]
  constructor
  · intro h mail_id hmem id hid id' hid'
    obtain ⟨r, hr, hmail, _⟩ := mem_ownRows.1 hid
    obtain ⟨r', hr', hmail', _⟩ := mem_ownRows.1 hid'
    exact h ((mem_inboxRows hshown).2 ⟨mail_id, hmem, hid⟩)
      ((mem_inboxRows hshown).2 ⟨mail_id, hmem, hid'⟩) (by simp [message, hr, hr', hmail, hmail'])
  · intro h id hid id' hid' heq
    obtain ⟨mail_id, hmem, hown⟩ := (mem_inboxRows hshown).1 hid
    obtain ⟨mail_id', hmem', hown'⟩ := (mem_inboxRows hshown).1 hid'
    obtain ⟨r, hr, hmail, _⟩ := mem_ownRows.1 hown
    obtain ⟨r', hr', hmail', _⟩ := mem_ownRows.1 hown'
    obtain rfl : mail_id = mail_id' := by
      have heq' : some r.message_id = some r'.message_id := by simpa [message, hr, hr'] using heq
      rw [← hmail, ← hmail']
      exact Option.some.inj heq'
    exact h mail_id hmem id hown id' hown'

theorem inbox_acts_iff (hmailbox : payload.mailbox = .inbox)
    (hcontract : payload.validate_contract = .ok ()) (hfiled : ¬payload.filed)
    (hshown : (Box.received .inbox).Shown db actor payload) :
    (∃ db', bulk_mail db actor first payload now = .ok db' ∧
      ActsExactly (.received .inbox) actor payload db db') ↔ OneRowEach db actor payload := by
  have hbulk : bulk_mail db actor first payload now = bulkInbox db actor payload now := by
    unfold bulk_mail
    rw [hcontract, if_neg hfiled, if_pos hmailbox]
    rfl
  have hupdates : payload.Updates := by
    constructor <;> exact fun h => hfiled (.inl (by simp [h]))
  rw [hbulk, ← card_inboxRows_iff hshown]
  constructor
  · rintro ⟨db', hok, _⟩
    obtain ⟨_, hlocked, _⟩ := bind_ok.1 hok
    exact (require_ok.1 hlocked).1
  · intro hcard
    have hone := (card_inboxRows_iff hshown).1 hcard
    -- Each locked row is the one that the inbox shows for its mail.
    have hrows : ∀ id, id ∈ inboxRows db actor payload ↔
        (Box.received .inbox).ShowsRow db actor payload id := by
      intro id
      rw [mem_inboxRows hshown, Box.showsRow_received]
      constructor
      · rintro ⟨mail_id, hmem, hown⟩
        obtain ⟨m, hm, hwithin, hsent, id', r, hr, rfl, howns, hlive, hholds⟩ :=
          ReceivedList.lists_iff.1 (hshown mail_id hmem)
        obtain rfl := hone _ hmem id hown id' (mem_ownRows.2 ⟨r, hr, rfl, howns⟩)
        exact ⟨r, m, hr, hmem, howns, hlive, hm, hwithin, hsent, hholds⟩
      · rintro ⟨r, m, hr, hmem, howns, _⟩
        exact ⟨r.message_id, hmem, mem_ownRows.2 ⟨r, hr, rfl, howns⟩⟩
    refine ⟨_, bind_ok.2 ⟨(), require_ok.2 ⟨hcard, inboxRows_show hshown⟩, rfl⟩, ?_⟩
    have hafter : ∀ id r, db.recipients.rows id = some r → id ∈ inboxRows db actor payload →
        ((db.recipients.update (fun id r => decide (id ∈ inboxRows db actor payload) &&
          !payload.unchanged r) (payload.write now)).rows id) =
          some (if payload.unchanged r = true then r else payload.write now r) := by
      intro id r hr hid
      rw [Table.rows_update, hr, Option.map_some]
      cases hsame : payload.unchanged r <;> simp [hid]
    refine ⟨fun id hid => ?_, nofun, fun hmoves id => ⟨fun hid hstill => ?_, nofun⟩,
      fun id hid => ?_, fun _ _ => rfl⟩
    · obtain ⟨r, m, hr, _⟩ := Box.showsRow_received.1 hid
      refine ⟨_, hafter id r hr ((hrows id).2 hid), ?_⟩
      split_ifs with hsame
      · exact reached_of_unchanged hfiled _ id hsame
      · exact (contract_of_ok hcontract).reached_write hupdates _ id r
    · obtain ⟨r, m, hr, _, _, hlive, _⟩ := Box.showsRow_received.1 hid
      obtain ⟨r', _, hr', _, _, hlive', _, _, _, hholds'⟩ := Box.showsRow_received.1 hstill
      have hr'' := (hafter id r hr ((hrows id).2 hid)).symm.trans hr'
      have hdelete : payload.action = .delete := by
        cases haction : payload.action <;>
          simp_all [Box.MovesOut, MailBulkRequest.filed]
      split_ifs at hr'' with hsame
      · cases hr''
        simp_all [MailBulkRequest.unchanged, Recipient.live]
      · cases hr''
        simp [MailBulkRequest.write, hdelete, Recipient.live] at hlive'
    · have hnot : id ∉ inboxRows db actor payload := fun h => hid ((hrows id).1 h)
      show (db.recipients.update (fun id r => decide (id ∈ inboxRows db actor payload) &&
        !payload.unchanged r) (payload.write now)).rows id = db.recipients.rows id
      rw [Table.rows_update]
      cases db.recipients.rows id <;> simp [hnot]

/-! ## The mailboxes of the sender -/

/-- A mailbox of the sender, with the status of its mails. -/
def Box.senderStatus : Box → Option MailStatus
  | sent => some .sent
  | draft => some .draft
  | _ => none

/-- The status that `bulk_mail` expects in a mailbox of the sender. -/
def MailBulkRequest.expected_status (payload : MailBulkRequest) : MailStatus :=
  if payload.mailbox = .draft then .draft else .sent

/-- The mails that `bulk_mail` locks for the sender. -/
def sentRows (db : Db) (actor : AuthUserSummary) (payload : MailBulkRequest) : Finset RowId :=
  db.mails.select (fun id m => decide (id ∈ payload.mailIds) && actor.within m && actor.sends m &&
    decide (m.status = payload.expected_status))

/-- The tables after the mails of the sender went to the trash. -/
def sentAfter (db : Db) (actor : AuthUserSummary) (payload : MailBulkRequest) (now : Time) : Db :=
  let mails := db.mails.update
    (fun id m => decide (id ∈ sentRows db actor payload) && m.sender_deleted_at.isNone)
    (fun m => { m with sender_deleted_at := some now, updated_at := now })
  { db with mails := mails }

theorem sender_acts {box : Box} {status : MailStatus} (hbox : box.senderStatus = some status)
    (hmailbox : payload.mailbox = box.mailbox) (hcontract : payload.validate_contract = .ok ())
    (hshown : box.Shown db actor payload) :
    ∃ db', bulk_mail db actor first payload now = .ok db' ∧ ActsExactly box actor payload db db' := by
  have hlist : ∀ id ∈ payload.mailIds, id ∈ _list_sender_query db actor status := by
    cases box <;> cases hbox <;> exact hshown
  have hshowsMail : ∀ db' id, box.ShowsMail db' actor payload id ↔
      id ∈ payload.mailIds ∧ id ∈ _list_sender_query db' actor status := by
    intro db' id
    cases box <;> cases hbox <;> rfl
  have hshowsRow : ∀ id, ¬box.ShowsRow db actor payload id := by
    intro id
    cases box <;> cases hbox <;> exact fun h => h
  have hexpected : payload.expected_status = status := by
    unfold MailBulkRequest.expected_status
    rw [hmailbox]
    cases box <;> cases hbox <;> rfl
  have hdelete : payload.action = .delete := by
    have hallowed := (contract_of_ok hcontract).allowed
    rw [hmailbox] at hallowed
    cases box <;> cases hbox <;> simpa [Box.mailbox, Mailbox.allowed] using hallowed
  have hfiled : ¬payload.filed := by
    rw [MailBulkRequest.filed, hmailbox, hdelete]
    cases box <;> cases hbox <;> decide
  have hinbox : payload.mailbox ≠ .inbox := by
    rw [hmailbox]
    cases box <;> cases hbox <;> decide
  have hrows : ∀ id, id ∈ sentRows db actor payload ↔ id ∈ payload.mailIds := by
    intro id
    simp only [sentRows, Table.mem_select, Bool.and_eq_true, decide_eq_true_eq]
    constructor
    · rintro ⟨_, _, ⟨⟨hmem, _⟩, _⟩, _⟩
      exact hmem
    · intro hmem
      obtain ⟨m, hm, hwithin, hsends, hstatus, _⟩ := mem_sender_list.1 (hlist id hmem)
      exact ⟨m, hm, ⟨⟨hmem, hwithin⟩, hsends⟩, by rw [hexpected, hstatus]⟩
  have hcard : (sentRows db actor payload).card = payload.mailIds.length := by
    rw [← List.toFinset_card_of_nodup payload.distinct]
    congr 1
    ext id
    rw [hrows, List.mem_toFinset]
  have hok : bulk_mail db actor first payload now = .ok (sentAfter db actor payload now) := by
    unfold bulk_mail
    rw [hcontract, if_neg hfiled, if_neg hinbox]
    exact bind_ok.2 ⟨(), rfl, bind_ok.2 ⟨(), require_ok.2
      ⟨hcard, fun id hid => (hrows id).2 hid⟩, rfl⟩⟩
  have hafter : ∀ id, id ∈ payload.mailIds → ∀ m, db.mails.rows id = some m → m.live = true →
      (sentAfter db actor payload now).mails.rows id =
        some { m with sender_deleted_at := some now, updated_at := now } := by
    intro id hid m hm hlive
    have hdeleted : m.sender_deleted_at.isNone = true := (Bool.and_eq_true_iff.1 hlive).1
    rw [sentAfter, Table.rows_update, hm, Option.map_some, if_pos]
    simp [(hrows id).2 hid, hdeleted]
  refine ⟨_, hok, fun id hid => absurd hid (hshowsRow id), fun id hid => ?_,
    fun _ id => ⟨fun hid => absurd hid (hshowsRow id), fun hid hstill => ?_⟩, fun _ _ => rfl,
    fun id hid => ?_⟩
  · obtain ⟨hmem, hin⟩ := (hshowsMail db id).1 hid
    obtain ⟨m, hm, _, _, _, hlive, _⟩ := mem_sender_list.1 hin
    exact ⟨_, hafter id hmem m hm hlive, by simp [MailBulkRequest.ReachedCopy, hdelete]⟩
  · obtain ⟨hmem, hin⟩ := (hshowsMail db id).1 hid
    obtain ⟨m, hm, _, _, _, hlive, _⟩ := mem_sender_list.1 hin
    obtain ⟨_, hin'⟩ := (hshowsMail _ id).1 hstill
    obtain ⟨m', hm', _, _, _, hlive', _⟩ := mem_sender_list.1 hin'
    cases (hafter id hmem m hm hlive).symm.trans hm'
    simp [Mail.live] at hlive'
  · have hnot : id ∉ sentRows db actor payload := by
      intro h
      have hmem := (hrows id).1 h
      exact hid ((hshowsMail db id).2 ⟨hmem, hlist id hmem⟩)
    rw [sentAfter, Table.rows_update]
    cases db.mails.rows id <;> simp [hnot]

/-! ## The trash -/

/-- Each selected view of the inbox has one row in the trash, and no selected copy of the sender
is that of a cancelled mail. -/
structure OneTrashed (db : Db) (actor : AuthUserSummary) (payload : MailBulkRequest) : Prop where
  rows : ∀ view ∈ payload.views, view.sourceMailbox = .inbox →
    ∀ id ∈ trashedRows db actor view.mailId, ∀ id' ∈ trashedRows db actor view.mailId, id = id'
  copies : ∀ view ∈ payload.views, view.sourceMailbox ≠ .inbox →
    ∀ m, db.mails.rows view.mailId = some m → m.status ≠ .cancelled

theorem mem_trashedRows {mail_id : RowId} : id ∈ trashedRows db actor mail_id ↔
    ∃ r m, db.recipients.rows id = some r ∧ r.message_id = mail_id ∧ actor.owns r = true ∧
      r.trashed = true ∧ db.mails.rows r.message_id = some m ∧ actor.within m = true := by
  simp only [trashedRows, Table.mem_select, Db.joined, Bool.and_eq_true, Option.any_eq_true,
    decide_eq_true_eq]
  constructor
  · rintro ⟨r, hr, ⟨⟨hmail, m, hm, hwithin⟩, howns⟩, htrashed⟩
    exact ⟨r, m, hr, hmail, howns, htrashed, hm, hwithin⟩
  · rintro ⟨r, m, hr, hmail, howns, htrashed, hm, hwithin⟩
    exact ⟨r, hr, ⟨⟨hmail, m, hm, hwithin⟩, howns⟩, htrashed⟩

/-- The rows that the trash shows for the selected views. -/
theorem showsRow_trash : Box.trash.ShowsRow db actor payload id ↔
    ∃ mail_id, ⟨mail_id, .inbox⟩ ∈ payload.views ∧ id ∈ trashedRows db actor mail_id := by
  simp only [Box.ShowsRow, mem_trash, mem_trashedRows]
  constructor
  · rintro ⟨⟨r, m, hr, howns, htrashed, hm, hwithin⟩, hview⟩
    exact ⟨r.message_id, hview r hr, r, m, hr, rfl, howns, htrashed, hm, hwithin⟩
  · rintro ⟨_, hview, r, m, hr, rfl, howns, htrashed, hm, hwithin⟩
    refine ⟨⟨r, m, hr, howns, htrashed, hm, hwithin⟩, fun r' hr' => ?_⟩
    cases hr.symm.trans hr'
    exact hview

theorem mem_trashRecipients :
    id ∈ trashRecipients db actor first payload.views ↔
      ∃ mail_id, ⟨mail_id, .inbox⟩ ∈ payload.views ∧
        first.pick (trashedRows db actor mail_id) = some id := by
  simp only [trashRecipients, List.mem_toFinset, List.mem_filterMap]
  constructor
  · rintro ⟨⟨mail_id, source⟩, hview, hpick⟩
    rw [Option.ite_none_right_eq_some] at hpick
    obtain ⟨rfl, hpick⟩ := hpick
    exact ⟨mail_id, hview, hpick⟩
  · rintro ⟨mail_id, hview, hpick⟩
    exact ⟨⟨mail_id, .inbox⟩, hview, by simpa using hpick⟩

theorem mem_trashMails {views : List MailTrashSelection} :
    id ∈ trashMails views ↔ ∃ source, source ≠ .inbox ∧ ⟨id, source⟩ ∈ views := by
  simp only [trashMails, List.mem_toFinset, List.mem_map, List.mem_filter, decide_eq_true_eq]
  constructor
  · rintro ⟨⟨mail_id, source⟩, ⟨hview, hsource⟩, rfl⟩
    exact ⟨source, hsource, hview⟩
  · rintro ⟨source, hsource, hview⟩
    exact ⟨⟨id, source⟩, ⟨hview, hsource⟩, rfl⟩

/-- The tables after an action on the trash. -/
def trashAfter (db : Db) (actor : AuthUserSummary) (first : FirstRow) (payload : MailBulkRequest)
    (now : Time) : Db :=
  let mails := db.mails.update (fun id _ => decide (id ∈ trashMails payload.views))
    (writeCopy payload.action now)
  { updateRows db payload (trashRecipients db actor first payload.views) now with mails := mails }

theorem trash_ok_iff (hmailbox : payload.mailbox = .trash)
    (hcontract : payload.validate_contract = .ok ()) (howned : payload.TargetsOwned db actor)
    {db' : Db} : bulk_mail db actor first payload now = .ok db' ↔
      (∀ view ∈ payload.views, locks db actor view = true) ∧
        db' = trashAfter db actor first payload now := by
  have haction : payload.action = .restore ∨ payload.action = .purge := by
    have hallowed := (contract_of_ok hcontract).allowed
    rw [hmailbox] at hallowed
    simpa [Mailbox.allowed] using hallowed
  have hwrite : writeRows db payload (trashRecipients db actor first payload.views) now =
      updateRows db payload (trashRecipients db actor first payload.views) now := by
    rcases haction with h | h <;> simp [writeRows, h, updateRows]
  have hfiled : payload.filed := .inr (by simp [hmailbox])
  obtain ⟨hfolder, htag⟩ := targets_lock howned
  have hbulk : bulk_mail db actor first payload now =
      _bulk_mail_ui020 db actor first payload now := by
    unfold bulk_mail
    rw [hcontract, if_pos hfiled]
    rfl
  rw [hbulk, _bulk_mail_ui020, hfolder, htag, if_pos hmailbox, trashAfter, ← hwrite]
  constructor
  · intro h
    obtain ⟨_, _, h⟩ := bind_ok.1 h
    obtain ⟨_, _, h⟩ := bind_ok.1 h
    obtain ⟨_, hlocks, h⟩ := bind_ok.1 h
    exact ⟨require_ok.1 hlocks, (Except.ok.inj h).symm⟩
  · rintro ⟨hlocks, rfl⟩
    exact bind_ok.2 ⟨(), rfl, bind_ok.2 ⟨(), rfl, bind_ok.2 ⟨(), require_ok.2 hlocks, rfl⟩⟩⟩

theorem trashAfter_rows : (trashAfter db actor first payload now).recipients.rows id =
    (db.recipients.rows id).map (fun r =>
      if id ∈ trashRecipients db actor first payload.views then payload.write now r else r) :=
  updateRows_rows

theorem trashAfter_mails : (trashAfter db actor first payload now).mails.rows id =
    (db.mails.rows id).map (fun m =>
      if id ∈ trashMails payload.views then writeCopy payload.action now m else m) := by
  simp [trashAfter]

/-- A selected view that is shown finds its row unless it is the copy of a cancelled mail. -/
theorem locks_iff {view : MailTrashSelection} (hview : view ∈ payload.views)
    (hshown : Box.trash.Shown db actor payload) : locks db actor view = true ↔
      (view.sourceMailbox ≠ .inbox → ∀ m, db.mails.rows view.mailId = some m →
        m.status ≠ .cancelled) := by
  have hshows := hshown view hview
  obtain ⟨mail_id, source⟩ := view
  have hcopy : source ≠ .inbox → mail_id ∈ list_trash_mails db actor →
      (∀ m, db.mails.rows mail_id = some m → m.source_mailbox = source) →
      (trashedCopy db actor ⟨mail_id, source⟩ = true ↔
        ∀ m, db.mails.rows mail_id = some m → m.status ≠ .cancelled) := by
    intro hsource hmem hstatus
    obtain ⟨m, hm, hwithin, hsends, htrashed⟩ := mem_trash_mails.1 hmem
    have hsource' := hstatus m hm
    simp only [trashedCopy, hm, Option.any_some, hwithin, hsends, htrashed, Bool.true_and,
      Bool.and_true, decide_eq_true_eq, Option.some.injEq, forall_eq']
    cases source <;> cases hs : m.status <;>
      simp_all [Mail.source_mailbox, SourceMailbox.statuses]
  cases source with
  | inbox =>
    obtain ⟨m, hm, hwithin, id, r, hr, hmail, howns, htrashed⟩ := shows_trash.1 hshows
    have hmem : id ∈ trashedRows db actor mail_id :=
      mem_trashedRows.2 ⟨r, m, hr, hmail, howns, htrashed, by rw [hmail]; exact hm, hwithin⟩
    simp only [locks, decide_eq_true_eq, ne_eq, not_true_eq_false, false_implies, iff_true]
    exact ⟨id, hmem⟩
  | sent => simpa [locks] using hcopy nofun hshows.1 hshows.2
  | draft => simpa [locks] using hcopy nofun hshows.1 hshows.2

theorem trash_acts_iff (hmailbox : payload.mailbox = .trash)
    (hcontract : payload.validate_contract = .ok ()) (howned : payload.TargetsOwned db actor)
    (hshown : Box.trash.Shown db actor payload) :
    (∃ db', bulk_mail db actor first payload now = .ok db' ∧
      ActsExactly .trash actor payload db db') ↔ OneTrashed db actor payload := by
  have haction : payload.action = .restore ∨ payload.action = .purge := by
    have hallowed := (contract_of_ok hcontract).allowed
    rw [hmailbox] at hallowed
    simpa [Mailbox.allowed] using hallowed
  have hupdates : payload.Updates := by
    rcases haction with h | h <;> simp [MailBulkRequest.Updates, h]
  have hwrites : ∀ r : Recipient, payload.Reached db (.mail 0) r → r.trashed = true → False := by
    intro r hreached htrashed
    rcases haction with h | h <;>
      simp_all [MailBulkRequest.Reached, Recipient.trashed]
  have hreached : ∀ (db' : Db) id r, payload.Reached db' id r → payload.Reached db (.mail 0) r := by
    intro db' id r
    rcases haction with h | h <;> simp [MailBulkRequest.Reached, h]
  constructor
  · rintro ⟨db', hok, hacts⟩
    obtain ⟨hlocks, rfl⟩ := (trash_ok_iff hmailbox hcontract howned).1 hok
    refine ⟨?_, fun view hview => (locks_iff hview hshown).1 (hlocks view hview)⟩
    rintro ⟨mail_id, source⟩ hview rfl
    -- Only the row that `fetchone` returned can be in the state that the action is for.
    have hpicked : ∀ id ∈ trashedRows db actor mail_id,
        first.pick (trashedRows db actor mail_id) = some id := by
      intro id hid
      obtain ⟨r, m, hr, hmail, howns, htrashed, hm, hwithin⟩ := mem_trashedRows.1 hid
      obtain ⟨r', hr', hreach⟩ := hacts.rows id (showsRow_trash.2 ⟨mail_id, hview, hid⟩)
      rw [trashAfter_rows, hr, Option.map_some] at hr'
      split_ifs at hr' with hmem
      · obtain ⟨mail_id', _, hpick⟩ := mem_trashRecipients.1 hmem
        obtain ⟨r'', _, hr'', hmail', _⟩ := mem_trashedRows.1 (first.mem hpick)
        cases hr.symm.trans hr''
        rw [← hmail, hmail']
        exact hpick
      · cases hr'
        exact absurd htrashed (fun h => hwrites r (hreached _ id r hreach) h)
    intro id hid id' hid'
    exact Option.some.inj ((hpicked id hid).symm.trans (hpicked id' hid'))
  · intro hone
    have hlocks : ∀ view ∈ payload.views, locks db actor view = true :=
      fun view hview => (locks_iff hview hshown).2 (hone.copies view hview)
    have hrows : ∀ id, id ∈ trashRecipients db actor first payload.views ↔
        Box.trash.ShowsRow db actor payload id := by
      intro id
      rw [mem_trashRecipients, showsRow_trash]
      constructor
      · rintro ⟨mail_id, hview, hpick⟩
        exact ⟨mail_id, hview, first.mem hpick⟩
      · rintro ⟨mail_id, hview, hid⟩
        obtain ⟨id', hpick⟩ := Option.isSome_iff_exists.1 (first.some_of_nonempty ⟨id, hid⟩)
        obtain rfl := hone.rows _ hview rfl id hid id' (first.mem hpick)
        exact ⟨mail_id, hview, hpick⟩
    have hmails : ∀ id, id ∈ trashMails payload.views ↔
        Box.trash.ShowsMail db actor payload id := by
      intro id
      rw [mem_trashMails]
      constructor
      · rintro ⟨source, hsource, hview⟩
        have hshows := hshown _ hview
        cases source with
        | inbox => exact absurd rfl hsource
        | sent => exact ⟨hshows.1, fun m hm => (hshows.2 m hm).symm ▸ hview⟩
        | draft => exact ⟨hshows.1, fun m hm => (hshows.2 m hm).symm ▸ hview⟩
      · rintro ⟨hmem, hview⟩
        obtain ⟨m, hm, _⟩ := mem_trash_mails.1 hmem
        refine ⟨m.source_mailbox, ?_, hview m hm⟩
        unfold Mail.source_mailbox
        split_ifs <;> decide
    refine ⟨_, (trash_ok_iff hmailbox hcontract howned).2 ⟨hlocks, rfl⟩, fun id hid => ?_,
      fun id hid => ?_, fun _ id => ⟨fun hid hstill => ?_, fun hid hstill => ?_⟩, fun id hid => ?_,
      fun id hid => ?_⟩
    · obtain ⟨_, _, hin⟩ := showsRow_trash.1 hid
      obtain ⟨r, m, hr, _⟩ := mem_trashedRows.1 hin
      refine ⟨payload.write now r, ?_, (contract_of_ok hcontract).reached_write hupdates _ id r⟩
      rw [trashAfter_rows, hr, Option.map_some, if_pos ((hrows id).2 hid)]
    · obtain ⟨m, hm, _⟩ := mem_trash_mails.1 hid.1
      refine ⟨writeCopy payload.action now m, ?_, ?_⟩
      · rw [trashAfter_mails, hm, Option.map_some, if_pos ((hmails id).2 hid)]
      · rcases haction with h | h <;> simp [MailBulkRequest.ReachedCopy, writeCopy, h]
    · obtain ⟨_, _, hin⟩ := showsRow_trash.1 hid
      obtain ⟨r, m, hr, _⟩ := mem_trashedRows.1 hin
      obtain ⟨_, _, hin'⟩ := showsRow_trash.1 hstill
      obtain ⟨r', _, hr', _, _, htrashed', _⟩ := mem_trashedRows.1 hin'
      rw [trashAfter_rows, hr, Option.map_some, if_pos ((hrows id).2 hid)] at hr'
      cases hr'
      exact hwrites _ ((contract_of_ok hcontract).reached_write hupdates db (.mail 0) r) htrashed'
    · obtain ⟨m, hm, _⟩ := mem_trash_mails.1 hid.1
      obtain ⟨m', hm', _, _, htrashed'⟩ := mem_trash_mails.1 hstill.1
      rw [trashAfter_mails, hm, Option.map_some, if_pos ((hmails id).2 hid)] at hm'
      cases hm'
      rcases haction with h | h <;> simp [writeCopy, h, Mail.trashed] at htrashed'
    · have hnot : id ∉ trashRecipients db actor first payload.views := fun h => hid ((hrows id).1 h)
      rw [trashAfter_rows]
      cases db.recipients.rows id <;> simp [hnot]
    · have hnot : id ∉ trashMails payload.views := fun h => hid ((hmails id).1 h)
      rw [trashAfter_mails]
      cases db.mails.rows id <;> simp [hnot]

/-! ## Every mailbox and action -/

/-- When a bulk action acts on what is shown and on nothing else. -/
def Box.Exact (box : Box) (db : Db) (actor : AuthUserSummary) (payload : MailBulkRequest)
    (now : Time) : Prop :=
  match box with
  | sent => True
  | draft => True
  | trash => OneTrashed db actor payload
  | received .spam => True
  | received b =>
    match payload.action with
    | .add_tag => True
    | .remove_tag => True
    | .delete =>
      if b = .inbox then OneRowEach db actor payload
      else ∀ id ∈ contextRows db actor payload, (received b).ShowsRow db actor payload id
    | .move_folder => ∀ id ∈ contextRows db actor payload,
        ¬(received b).ShowsRow db actor payload id → ∀ r, db.recipients.rows id = some r →
          r.folder_id = payload.targetFolderId
    | .spam => ∀ id ∈ contextRows db actor payload, ¬(received b).ShowsRow db actor payload id →
        ∀ r, db.recipients.rows id = some r → r.is_spam = true ∧ r.spam_marked_at = some now
    -- The states of a row, which only the inbox writes.
    | _ =>
      if b = .inbox then OneRowEach db actor payload
      else ∀ id, (received b).ShowsRow db actor payload id →
        ∀ r, db.recipients.rows id = some r → payload.unchanged r = true

/-- In the list of spam, the context selects what is shown. -/
theorem spam_context_shown (hmailbox : payload.mailbox = .spam)
    (hshown : (Box.received .spam).Shown db actor payload) (hid : id ∈ contextRows db actor payload) :
    (Box.received .spam).ShowsRow db actor payload id := by
  obtain ⟨r, m, hr, hmail, hm, hwithin, _, howns, hcontext⟩ := mem_selectedRows.1 hid
  obtain ⟨m', hm', _, hsent, _⟩ := ReceivedList.lists_iff.1 (hshown r.message_id hmail)
  cases hm.symm.trans hm'
  rw [hmailbox] at hcontext
  simp only [Mailbox.context, Bool.and_eq_true] at hcontext
  exact Box.showsRow_received.2 ⟨r, m, hr, hmail, howns, hcontext.1, hm, hwithin, hsent,
    hcontext.2⟩

/-- The rows of a context are not in the trash. -/
theorem context_live (hmailbox : payload.mailbox = (Box.received b).mailbox)
    (hid : id ∈ contextRows db actor payload) :
    ∃ r, db.recipients.rows id = some r ∧ r.live = true := by
  obtain ⟨r, m, hr, _, _, _, _, _, hcontext⟩ := mem_selectedRows.1 hid
  refine ⟨r, hr, ?_⟩
  rw [hmailbox] at hcontext
  cases b with
  | inbox => exact hcontext
  | tag _ => exact hcontext
  | folder _ => exact (Bool.and_eq_true_iff.1 hcontext).1
  | spam => exact (Bool.and_eq_true_iff.1 hcontext).1

theorem writeRows_eq_updateRows {rows : Finset RowId}
    (haction : payload.action ∈ [Action.delete, .move_folder, .spam, .not_spam]) :
    writeRows db payload rows now = updateRows db payload rows now := by
  cases h : payload.action <;> simp_all [writeRows, updateRows]

theorem filed_acts_iff (hmailbox : payload.mailbox = (Box.received b).mailbox)
    (hcontract : Contract payload) (hfiled : payload.filed)
    (hshown : (Box.received b).Shown db actor payload) :
    ActsExactly (.received b) actor payload db
        (writeRows db payload (contextRows db actor payload) now) ↔
      (Box.received b).Exact db actor payload now := by
  have hallowed := hcontract.allowed
  rw [hmailbox] at hallowed
  by_cases hspam : b = .spam
  · subst hspam
    have haction : payload.action ∈ [Action.delete, .move_folder, .spam, .not_spam] := by
      cases h : payload.action <;> simp_all [Box.mailbox, Mailbox.allowed]
    have hupdates : payload.Updates := by
      constructor <;> exact fun h => by simp [h] at haction
    rw [writeRows_eq_updateRows haction, updateRows_acts_iff hmailbox hcontract hupdates]
    exact ⟨fun _ => trivial, fun _ id hid hnot => absurd (spam_context_shown hmailbox hshown hid) hnot⟩
  · cases haction : payload.action with
    | add_tag =>
      refine iff_of_true (add_tag_acts haction hmailbox) ?_
      cases b <;> simp [Box.Exact, haction]
    | remove_tag =>
      refine iff_of_true (remove_tag_acts haction hmailbox) ?_
      cases b <;> simp [Box.Exact, haction]
    | delete =>
      have hupdates : payload.Updates := by constructor <;> rw [haction] <;> decide
      have hinbox : b ≠ .inbox := by
        rintro rfl
        simp [MailBulkRequest.filed, haction, hmailbox, Box.mailbox] at hfiled
      rw [writeRows_eq_updateRows (by simp [haction]),
        updateRows_acts_iff hmailbox hcontract hupdates]
      have hexact : (Box.received b).Exact db actor payload now ↔
          ∀ id ∈ contextRows db actor payload,
            (Box.received b).ShowsRow db actor payload id := by
        cases b <;> simp_all [Box.Exact]
      rw [hexact]
      constructor
      · intro h id hid
        by_contra hnot
        obtain ⟨r, hr, hlive⟩ := context_live hmailbox hid
        have hsame := congrArg Recipient.deleted_at (h id hid hnot r hr)
        simp only [MailBulkRequest.write, haction] at hsame
        simp [Recipient.live, ← hsame] at hlive
      · exact fun h id hid hnot => absurd (h id hid) hnot
    | move_folder =>
      have hupdates : payload.Updates := by constructor <;> rw [haction] <;> decide
      rw [writeRows_eq_updateRows (by simp [haction]),
        updateRows_acts_iff hmailbox hcontract hupdates]
      have hwrite : ∀ r : Recipient, payload.write now r = r ↔
          r.folder_id = payload.targetFolderId := by
        intro r
        simp only [MailBulkRequest.write, haction]
        exact ⟨fun h => (congrArg Recipient.folder_id h).symm, fun h => by rw [← h]⟩
      simp only [hwrite]
      cases b <;> simp_all [Box.Exact]
    | spam =>
      have hupdates : payload.Updates := by constructor <;> rw [haction] <;> decide
      rw [writeRows_eq_updateRows (by simp [haction]),
        updateRows_acts_iff hmailbox hcontract hupdates]
      have hwrite : ∀ r : Recipient, payload.write now r = r ↔
          r.is_spam = true ∧ r.spam_marked_at = some now := by
        intro r
        simp only [MailBulkRequest.write, haction]
        exact ⟨fun h => ⟨(congrArg Recipient.is_spam h).symm,
          (congrArg Recipient.spam_marked_at h).symm⟩, fun h => by rw [← h.1, ← h.2]⟩
      simp only [hwrite]
      cases b <;> simp_all [Box.Exact]
    | move => cases b <;> simp_all [Box.mailbox, Mailbox.allowed, MailBulkRequest.filed]
    | not_spam => cases b <;> simp_all [Box.mailbox, Mailbox.allowed]
    | restore => cases b <;> simp_all [Box.mailbox, Mailbox.allowed]
    | purge => cases b <;> simp_all [Box.mailbox, Mailbox.allowed]
    | _ =>
      have hwrite : writeRows db payload (contextRows db actor payload) now = db := by
        simp [writeRows, haction]
      rw [hwrite, no_branch_acts_iff (by simp [haction])]
      cases b <;> simp_all [Box.Exact, Box.mailbox, MailBulkRequest.filed]

/-- For every state, user, mailbox and selection of what it shows: a bulk action succeeds and acts
on what was shown, and on nothing else, just when the mailbox is exact for it. -/
theorem bulk_acts_exactly_iff (db : Db) (actor : AuthUserSummary) (first : FirstRow) (box : Box)
    (payload : MailBulkRequest) (now : Time) (hmailbox : payload.mailbox = box.mailbox)
    (hcontract : payload.validate_contract = .ok ()) (howned : payload.TargetsOwned db actor)
    (hshown : box.Shown db actor payload) :
    ((∃ db', bulk_mail db actor first payload now = .ok db' ∧
        ActsExactly box actor payload db db') ↔ box.Exact db actor payload now) ∧
      ∀ e, bulk_mail db actor first payload now = .error e →
        savepoint db (bulk_mail db actor first payload now) = db := by
  refine ⟨?_, fun e he => by rw [he]; rfl⟩
  cases box with
  | sent => exact iff_of_true (sender_acts rfl hmailbox hcontract hshown) trivial
  | draft => exact iff_of_true (sender_acts rfl hmailbox hcontract hshown) trivial
  | trash => exact trash_acts_iff hmailbox hcontract howned hshown
  | received b =>
    by_cases hfiled : payload.filed
    · rw [filed_ok hmailbox hcontract hfiled howned hshown,
        ← filed_acts_iff hmailbox (contract_of_ok hcontract) hfiled hshown]
      constructor
      · rintro ⟨db', hok, hacts⟩
        cases hok
        exact hacts
      · exact fun hacts => ⟨_, rfl, hacts⟩
    · obtain rfl : b = .inbox := by
        cases b <;> simp_all [MailBulkRequest.filed, Box.mailbox]
      rw [inbox_acts_iff hmailbox hcontract hfiled hshown]
      cases haction : payload.action <;> simp_all [Box.Exact, MailBulkRequest.filed]

/-- Bob reads the mails. -/
def reading (mailbox : Mailbox) : MailBulkRequest where
  mailIds := [.mail 0]
  action := .read
  mailbox := mailbox
  targetCategory := none
  targetFolderId := none
  targetTagId := none
  trashViews := none
  distinct := filing.distinct

theorem a_mail_in_the_inbox_is_read : ∃ db', bulk_mail sentDb bob firstRow (reading .inbox) 6 = .ok db' ∧
    ActsExactly (.received .inbox) bob (reading .inbox) sentDb db' := by
  have hone : ∀ mail_id ∈ (reading .inbox).mailIds, ∀ id ∈ ownRows sentDb bob mail_id,
      ∀ id' ∈ ownRows sentDb bob mail_id, id = id' := by decide +kernel
  have hlists : Shows sentDb (list_inbox sentDb bob) (.mail 0) := by decide +kernel
  refine (bulk_acts_exactly_iff sentDb bob firstRow (.received .inbox) (reading .inbox) 6 rfl rfl
    ⟨nofun, nofun⟩ ?_).1.2 hone
  intro mail_id hmem
  obtain rfl := List.mem_singleton.1 hmem
  exact ⟨_, rfl, hlists⟩

/-- Bob reads the mail in his folder: the call succeeds, and the mail stays unread. -/
theorem a_filed_mail_is_not_read : ¬∀ (codec : Codec) (db : Db) (actor : AuthUserSummary)
    (first : FirstRow) (box : Box) (payload : MailBulkRequest) (now : Time), Reachable codec db →
      db.settings.knows actor = true → payload.mailbox = box.mailbox →
      payload.validate_contract = .ok () → payload.TargetsOwned db actor →
      box.Shown db actor payload →
      ∃ db', bulk_mail db actor first payload now = .ok db' ∧
        ActsExactly box actor payload db db' := by
  intro h
  have hshown : (Box.received (.folder "work")).Shown filedDb bob (reading .folder) := by
    intro mail_id hmem
    obtain rfl := List.mem_singleton.1 hmem
    exact filed_is_listed
  obtain ⟨db', hok, hacts⟩ := h asciiCodec filedDb bob firstRow (.received (.folder "work"))
    (reading .folder) 7 reachable_filedDb (by decide +kernel) rfl rfl ⟨nofun, nofun⟩ hshown
  have hlisted : ((list_folder_messages filedDb bob "work").toOption.any
      (fun rows => decide (.recipient 0 "bob@moa.kr" ∈ rows))) = true := by decide +kernel
  have hselected : (filedDb.recipients.rows (.recipient 0 "bob@moa.kr")).all
      (fun r => decide (r.message_id ∈ (reading .folder).mailIds)) = true := by decide +kernel
  have hunread : ((bulk_mail filedDb bob firstRow (reading .folder) 7).toOption.bind
      (fun db => db.recipients.rows (.recipient 0 "bob@moa.kr"))).all
        (fun r => !r.is_read) = true := by decide +kernel
  obtain ⟨rows, hrows, hmem⟩ := (Option.any_eq_true _ _).1 hlisted
  obtain ⟨r, hr, hread⟩ := hacts.rows (.recipient 0 "bob@moa.kr")
    ⟨⟨rows, Raise.ok_of_toOption hrows, by simpa using hmem⟩, fun r hr => by
      rw [hr] at hselected
      simpa using hselected⟩
  have hread' : r.is_read = true := hread
  rw [hok, Except.toOption, Option.bind_some, hr, Option.all_some, hread'] at hunread
  cases hunread

end moaworks.mail_messenger_service
