-- The messages of a room, read back page by page: every call goes on before the time of the oldest
-- message shown, so messages of one instant are lost where a border between pages parts them.
import Mathlib.Data.String.Basic
import MoaWorks.Lib.Grouping
import MoaWorks.Lib.Paging
import MoaWorks.Lib.Raise
import MoaWorks.MessengerRooms

namespace moaworks.mail_messenger_service

open directory_store (Status)

namespace messages

/-! ## Tables -/

/-- A row of `messenger_messages`. -/
structure Message where
  room_id : String
  sender_user_id : String
  message_type : String
  body : String
  attachment_meta : List String
  created_at : Time
  retention_expires_at : Option Time
  deriving DecidableEq, Repr

/-- A row of `messenger_attachments`. -/
structure Attachment where
  message_id : String
  file_name : String
  content_type : String
  size_bytes : Nat
  created_at : Time
  deriving DecidableEq, Repr

/-- The rooms with their messages, whose senders exist as the foreign key has it. -/
structure Db where
  rooms : messenger_rooms.Db
  names : String → String
  /-- The locale of a user in a company. -/
  locales : Table (String × String) String
  messages : Table String Message
  /-- When a user has read a message, under the message and the user. -/
  reads : Table (String × String) Time
  attachments : Table String Attachment
  senders_known : ∀ id m, messages.rows id = some m →
    (rooms.users.rows m.sender_user_id).isSome = true

/-! ## Views -/

inductive ReadState
  | read | unread
  deriving DecidableEq, Repr

/-- A message as it is shown. -/
structure MessengerMessageView where
  messageId : String
  roomId : String
  senderUserId : String
  senderUserName : String
  senderLocale : String
  messageType : String
  body : String
  attachmentMeta : List String
  attachments : List (String × Attachment)
  createdAt : Time
  retentionExpiresAt : Option Time
  readBy : Finset String
  readState : ReadState
  recipientCount : Nat
  readCount : Nat
  unreadCount : Nat

structure MessengerMessageListResponse where
  messages : List MessengerMessageView
  nextCursor : Option Time

variable (db : Db)

def Db.active (user_id : String) : Bool :=
  (db.rooms.users.rows user_id).any (fun u => decide (u.status = .active))

/-- The members of the room other than the sender, who have not left and are active. -/
def recipients (m : Message) : Finset String :=
  (db.rooms.members.currentIds m.room_id).filter
    (fun user_id => db.active user_id = true ∧ user_id ≠ m.sender_user_id)

def readers (id : String) (m : Message) : Finset String :=
  (recipients db m).filter (fun user_id => (db.reads.rows (id, user_id)).isSome = true)

/-- `COALESCE(sender_pref.locale, 'ko-KR')`, for the company of the sender. -/
def senderLocale (m : Message) : String :=
  let locale := (db.rooms.users.rows m.sender_user_id).bind
    (fun u => db.locales.rows (m.sender_user_id, u.company_id))
  (locale.filter (fun text => decide (text ≠ ""))).getD "ko-KR"

def _to_message_view (row : String × Message) : MessengerMessageView :=
  let id := row.1
  let m := row.2
  let readBy := readers db id m
  { messageId := id
    roomId := m.room_id
    senderUserId := m.sender_user_id
    senderUserName := db.names m.sender_user_id
    senderLocale := senderLocale db m
    messageType := m.message_type
    body := m.body
    attachmentMeta := m.attachment_meta
    attachments := (db.attachments.orderedBy Attachment.created_at).filter
      (fun file => decide (file.2.message_id = id))
    createdAt := m.created_at
    retentionExpiresAt := m.retention_expires_at
    readBy := readBy
    readState := if readBy.Nonempty then .read else .unread
    recipientCount := (recipients db m).card
    readCount := readBy.card
    unreadCount := (recipients db m).card - readBy.card }

/-! ## The list -/

variable (actor : messenger_rooms.AuthUserSummary) (room_id : String)

def _fetch_accessible_room : Except messenger_rooms.Error messenger_rooms.Room :=
  match (db.rooms.activeRoom actor room_id).filter
    (fun _ => db.rooms.members.current room_id actor.userId) with
  | some room => .ok room
  | none => .error messenger_rooms.roomNotFound

/-- `WHERE msg.room_id = %s`, with the join on the sender. -/
def roomMessages : Multiset (String × Message) :=
  db.messages.collect (fun id m =>
    if m.room_id = room_id ∧ (db.rooms.users.rows m.sender_user_id).isSome = true then some (id, m)
    else none)

/-- `max(1, min(limit, 100))`. -/
def pageSize (limit : Int) : Nat := (max 1 (min limit 100)).toNat

/-- What the query may select: the newest messages before the cursor, one more than a page. -/
def Selects (limit : Int) (before : Option Time) (rows : List (String × Message)) : Prop :=
  ∃ all, Paging.IsListing (fun row : String × Message => row.2.created_at)
    (Paging.rest (fun row : String × Message => row.2.created_at) (roomMessages db room_id) before)
    all ∧ rows = all.take (pageSize limit + 1)

/-- The answer, from the rows that the query has selected. -/
def list_messages (limit : Int) (rows : List (String × Message)) :
    Except messenger_rooms.Error MessengerMessageListResponse := do
  let _ ← _fetch_accessible_room db actor room_id
  let has_more := decide (pageSize limit < rows.length)
  let visible := rows.take (pageSize limit)
  return { messages := visible.reverse.map (_to_message_view db)
           nextCursor := if has_more then visible.getLast?.map (fun row => row.2.created_at)
             else none }

/-- A call, what it shows and where the next call goes on. -/
def Call (limit : Int) (before : Option Time) (shown : List MessengerMessageView)
    (next : Option Time) : Prop :=
  ∃ rows, Selects db room_id limit before rows ∧
    list_messages db actor room_id limit rows = .ok ⟨shown, next⟩

/-- The calls come to an end, and whatever they have shown then is each message of the room once,
later pages before earlier ones and a page in the order of time. -/
structure Complete (limit : Int) : Prop where
  ends : Paging.Ends (Call db actor room_id limit) none
  answered : ∃ pages, Paging.Run (Call db actor room_id limit) none pages
  whole : ∀ pages, Paging.Run (Call db actor room_id limit) none pages →
    (pages.flatten : Multiset MessengerMessageView) =
      (db.messages.collect (fun id m => if m.room_id = room_id then some (id, m) else none)).map
        (_to_message_view db)
  ascending : ∀ pages, Paging.Run (Call db actor room_id limit) none pages →
    ∀ page ∈ pages, page.Pairwise (fun a b => a.createdAt ≤ b.createdAt)
  descending : ∀ pages, Paging.Run (Call db actor room_id limit) none pages →
    pages.Pairwise (fun page later => ∀ a ∈ page, ∀ b ∈ later, b.createdAt < a.createdAt)

/-- The times of the messages of a room, latest first. -/
def roomTimes : List Time :=
  Paging.times (fun row : String × Message => row.2.created_at) (roomMessages db room_id)

/-! ## The pages are those of the library -/

variable {db actor room_id} {limit : Int}

theorem pageSize_pos (limit : Int) : ∀ n, n = pageSize limit → 0 < n := by
  rintro _ rfl
  unfold pageSize
  omega

/-- Every sender is known, so the join loses no message. -/
theorem roomMessages_eq (db : Db) (room_id : String) : roomMessages db room_id =
    db.messages.collect (fun id m => if m.room_id = room_id then some (id, m) else none) := by
  unfold roomMessages Table.collect
  refine congrArg (fun f => Multiset.filterMap f db.messages.keys.val) (funext (fun id => ?_))
  rcases hm : db.messages.rows id with _ | m
  · rfl
  · simp [db.senders_known id m hm]

theorem call_iff (haccess : (_fetch_accessible_room db actor room_id).toOption.isSome = true)
    (before : Option Time) (shown : List MessengerMessageView) (next : Option Time) :
    Call db actor room_id limit before shown next ↔ ∃ page,
      Paging.Pages (fun row : String × Message => row.2.created_at) (roomMessages db room_id)
        (fun n => n = pageSize limit) before page next ∧
      shown = page.reverse.map (_to_message_view db) := by
  obtain ⟨room, hroom⟩ := Option.isSome_iff_exists.mp haccess
  have hroom := Raise.ok_of_toOption hroom
  have hanswer : ∀ rows, list_messages db actor room_id limit rows = .ok
      ⟨(rows.take (pageSize limit)).reverse.map (_to_message_view db),
        if pageSize limit < rows.length then
          (rows.take (pageSize limit)).getLast?.map (fun row => row.2.created_at) else none⟩ := by
    intro rows
    unfold list_messages
    rw [hroom]
    simp only [decide_eq_true_eq]
    rfl
  -- One row more than the page tells whether the listing goes on.
  have hmore : ∀ all : List (String × Message),
      (all.take (pageSize limit + 1)).take (pageSize limit) = all.take (pageSize limit) ∧
        (pageSize limit < (all.take (pageSize limit + 1)).length ↔ pageSize limit < all.length) := by
    intro all
    rw [List.take_take, List.length_take, Nat.min_eq_left (Nat.le_succ _)]
    exact ⟨rfl, by omega⟩
  constructor
  · rintro ⟨rows, ⟨all, hall, rfl⟩, h⟩
    rw [hanswer, (hmore all).1] at h
    cases h
    refine ⟨all.take (pageSize limit), ⟨pageSize limit, all, rfl, hall, rfl, ?_⟩, rfl⟩
    simp only [(hmore all).2]
  · rintro ⟨page, ⟨n, all, rfl, hall, rfl, rfl⟩, rfl⟩
    refine ⟨all.take (pageSize limit + 1), ⟨all, hall, rfl⟩, ?_⟩
    rw [hanswer, (hmore all).1]
    simp only [(hmore all).2]

variable (haccess : (_fetch_accessible_room db actor room_id).toOption.isSome = true)
include haccess

theorem call_ends : Paging.Ends (Call db actor room_id limit) none :=
  Paging.ends_map (fun before shown next => (call_iff haccess before shown next).mp)
    (Paging.pages_end (pageSize_pos limit) none)

theorem call_total (before : Option Time) :
    ∃ shown next, Call db actor room_id limit before shown next := by
  obtain ⟨page, next, hpage⟩ := Paging.pages_total (s := roomMessages db room_id)
    (⟨pageSize limit, rfl⟩ : ∃ n, n = pageSize limit) before
  exact ⟨_, next, (call_iff haccess before _ next).mpr ⟨page, hpage, rfl⟩⟩

/-- The pages that are shown, as rows. -/
theorem run_rows {pages : List (List MessengerMessageView)}
    (h : Paging.Run (Call db actor room_id limit) none pages) : ∃ rows,
      Paging.Run (Paging.Pages (fun row : String × Message => row.2.created_at)
        (roomMessages db room_id) (fun n => n = pageSize limit)) none rows ∧
      pages = rows.map (fun page => page.reverse.map (_to_message_view db)) :=
  Paging.run_map (fun before shown next => (call_iff haccess before shown next).mp) h

omit haccess in
theorem flatten_shown (rows : List (List (String × Message))) :
    ((rows.map (fun page => page.reverse.map (_to_message_view db))).flatten :
      Multiset MessengerMessageView) =
      (rows.flatten : Multiset (String × Message)).map (_to_message_view db) := by
  induction rows with
  | nil => rfl
  | cons page rows ih =>
    rw [List.map_cons, List.flatten_cons, List.flatten_cons, ← Multiset.coe_add, ih,
      ← Multiset.coe_add, Multiset.map_add, Multiset.map_coe, Multiset.map_coe,
      Multiset.coe_eq_coe.mpr ((List.reverse_perm page).map (_to_message_view db))]

theorem shown_ascending {pages : List (List MessengerMessageView)}
    (h : Paging.Run (Call db actor room_id limit) none pages) :
    ∀ page ∈ pages, page.Pairwise (fun a b => a.createdAt ≤ b.createdAt) := by
  obtain ⟨rows, hrows, rfl⟩ := run_rows haccess h
  have hsorted := (Paging.run_sorted (pageSize_pos limit) hrows).1
  intro shown hshown
  obtain ⟨page, hpage, rfl⟩ := List.mem_map.mp hshown
  rw [List.pairwise_map, List.pairwise_reverse]
  exact (List.pairwise_flatten.mp hsorted).1 page hpage

theorem shown_descending {pages : List (List MessengerMessageView)}
    (h : Paging.Run (Call db actor room_id limit) none pages) :
    pages.Pairwise (fun page later => ∀ a ∈ page, ∀ b ∈ later, b.createdAt < a.createdAt) := by
  obtain ⟨rows, hrows, rfl⟩ := run_rows haccess h
  have hstrict := (Paging.run_sorted (pageSize_pos limit) hrows).2
  rw [List.pairwise_map]
  refine hstrict.imp (fun hlater a ha b hb => ?_)
  obtain ⟨row, hrow, rfl⟩ := List.mem_map.mp ha
  obtain ⟨row', hrow', rfl⟩ := List.mem_map.mp hb
  exact hlater row (List.mem_reverse.mp hrow) row' (List.mem_reverse.mp hrow')

/-! ## Completeness -/

theorem whole_iff {pages : List (List MessengerMessageView)}
    (h : Paging.Run (Call db actor room_id limit) none pages) :
    (pages.flatten : Multiset MessengerMessageView) =
        (roomMessages db room_id).map (_to_message_view db) ↔
      Paging.Separated (pageSize limit) (roomTimes db room_id) := by
  obtain ⟨rows, hrows, rfl⟩ := run_rows haccess h
  have hcomplete := Paging.run_complete_iff (pageSize_pos limit _ rfl) hrows
  have hle := Paging.run_le (pageSize_pos limit) hrows
  rw [Paging.rest_none] at hcomplete hle
  rw [flatten_shown]
  refine Iff.trans ⟨fun hviews => ?_, fun heq => by rw [heq]⟩ hcomplete
  -- As many views as messages: none is missing.
  refine Multiset.eq_of_le_of_card_le hle ?_
  have hcard := congrArg Multiset.card hviews
  rw [Multiset.card_map, Multiset.card_map] at hcard
  exact hcard.ge

theorem complete_of_separated
    (h : Paging.Separated (pageSize limit) (roomTimes db room_id)) :
    Complete db actor room_id limit where
  ends := call_ends haccess
  answered := Paging.exists_run (call_total haccess) (call_ends haccess)
  whole pages hrun := by
    rw [← roomMessages_eq]
    exact (whole_iff haccess hrun).mpr h
  ascending _ hrun := shown_ascending haccess hrun
  descending _ hrun := shown_descending haccess hrun

theorem separated_of_complete (h : Complete db actor room_id limit) :
    Paging.Separated (pageSize limit) (roomTimes db room_id) := by
  obtain ⟨pages, hrun⟩ := h.answered
  have hwhole := h.whole pages hrun
  rw [← roomMessages_eq] at hwhole
  exact (whole_iff haccess hrun).mp hwhole

omit haccess

/-- The calls of a member of the room show every message once, in the order of time, exactly when no
border between two pages parts messages of one instant. -/
theorem messages_are_paged_once_iff (db : Db) (actor : messenger_rooms.AuthUserSummary)
    (room_id : String) (limit : Int)
    (haccess : (_fetch_accessible_room db actor room_id).toOption.isSome = true) :
    Complete db actor room_id limit ↔
      Paging.Separated (pageSize limit) (roomTimes db room_id) :=
  ⟨separated_of_complete haccess, complete_of_separated haccess⟩

/-! ## A room with two messages -/

def ana : messenger_rooms.AuthUserSummary := ⟨"ana", "moa", by decide⟩

def hall : messenger_rooms.Db where
  users := Table.empty.set "ana" ⟨"moa", .active⟩
  rooms := Table.empty.set "hall"
    { company_id := "moa"
      room_type := .group
      room_name := "hall"
      translation_locale := "ko-KR"
      created_by_user_id := "ana"
      created_at := 0
      updated_at := 0
      retention_expires_at := none
      status := .active
      closed_at := none
      closed_by_user_id := none }
  members := Table.empty.set ("hall", "ana") ⟨0, none, false⟩

def word (at_ : Time) (text : String) : Message where
  room_id := "hall"
  sender_user_id := "ana"
  message_type := "text"
  body := text
  attachment_meta := []
  created_at := at_
  retention_expires_at := none

/-- Two messages, and when the second one was sent. -/
def twoWords (second : Time) : Db where
  rooms := hall
  names := fun user_id => user_id
  locales := .empty
  messages := (Table.empty.set "a" (word 5 "hello")).set "b" (word second "there")
  reads := .empty
  attachments := .empty
  senders_known := by
    intro id m hm
    rw [Table.rows_set, Table.rows_set] at hm
    split_ifs at hm with hb ha
    · cases hm
      rfl
    · cases hm
      rfl
    · cases hm

theorem roomMessages_twoWords (second : Time) : roomMessages (twoWords second) "hall" =
    {("b", word second "there"), ("a", word 5 "hello")} := rfl

theorem twoWords_times {second : Time} (h : 5 ≤ second) :
    roomTimes (twoWords second) "hall" = [second, 5] := by
  have hlisting : Paging.IsListing (fun row : String × Message => row.2.created_at)
      (roomMessages (twoWords second) "hall") [("b", word second "there"), ("a", word 5 "hello")] := by
    refine ⟨(roomMessages_twoWords second).symm, List.pairwise_pair.mpr h⟩
  exact hlisting.times

theorem two_words_are_shown : Complete (twoWords 6) ana "hall" 1 := by
  refine (messages_are_paged_once_iff (twoWords 6) ana "hall" 1 (by decide +kernel)).mpr ?_
  have htimes : roomTimes (twoWords 6) "hall" = [6, 5] := twoWords_times (by decide)
  rw [htimes]
  refine (Paging.separated_iff Nat.one_pos rfl).mpr ⟨?_, Paging.separated_of_short (by decide)⟩
  rintro b hb
  cases hb
  decide

/-- One message a page: of two messages of one instant, one is never shown. -/
theorem a_simultaneous_message_is_lost :
    (_fetch_accessible_room (twoWords 5) ana "hall").toOption.isSome = true ∧
      ¬ Complete (twoWords 5) ana "hall" 1 := by
  refine ⟨by decide +kernel, fun hcomplete => ?_⟩
  have hseparated := separated_of_complete (by decide +kernel) hcomplete
  rw [twoWords_times (Nat.le_refl 5)] at hseparated
  exact absurd (hseparated 1 5 5 Nat.one_pos rfl rfl) (Nat.lt_irrefl 5)

end messages

end moaworks.mail_messenger_service
