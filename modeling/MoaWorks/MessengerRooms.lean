-- The rooms of the messenger: how a room is made, how its members and its owner change, and
-- how it is deleted.
import Mathlib.Data.Finset.Image
import MoaWorks.Actors
import MoaWorks.Clock
import MoaWorks.Lib.Raise

namespace moaworks.messenger_rooms

open directory_store (Status)
open Raise (bind_ok found found_ok require require_ok)

variable {room_id : String} {now : Time}

inductive Error
  | value_error (message : String)
  | not_found (message : String)
  | permission_error (message : String)
  | state_error (message : String)
  | conflict (message : String)
  | key_error
  deriving DecidableEq, Repr

structure AuthUserSummary where
  userId : String
  companyId : String
  /-- The ids of users are drawn, and none is the empty text. -/
  drawn : userId ≠ ""
  deriving DecidableEq, Repr

/-! ## Tables -/

structure User where
  company_id : String
  status : Status
  deriving DecidableEq, Repr

inductive RoomType
  | direct
  | group
  deriving DecidableEq, Repr

inductive RoomStatus
  | active
  | deleted
  deriving DecidableEq, Repr

/-- A row of `messenger_rooms`. -/
structure Room where
  company_id : String
  room_type : RoomType
  room_name : String
  translation_locale : String
  created_by_user_id : String
  created_at : Time
  updated_at : Time
  retention_expires_at : Option Time
  status : RoomStatus
  closed_at : Option Time
  closed_by_user_id : Option String
  deriving DecidableEq, Repr

/-- A row of `messenger_room_members`. -/
structure Member where
  joined_at : Time
  left_at : Option Time
  is_favorite : Bool
  deriving DecidableEq, Repr

/-- The members under their room and user, as UNIQUE (room_id, user_id) has them. -/
abbrev Members := Table (String × String) Member

/-- A member who has not left. -/
def Members.current (members : Members) (room_id user_id : String) : Bool :=
  (members.rows (room_id, user_id)).any (fun m => m.left_at.isNone)

def Members.currentIds (members : Members) (room_id : String) : Finset String :=
  (members.select (fun key m => decide (key.1 = room_id) && m.left_at.isNone)).image Prod.snd

variable {members : Members}

theorem Members.mem_currentIds {user_id : String} :
    user_id ∈ members.currentIds room_id ↔ members.current room_id user_id = true := by
  simp only [currentIds, Finset.mem_image, Table.mem_select, current, Option.any_eq_true]
  constructor
  · rintro ⟨⟨r, u⟩, ⟨m, hm, hp⟩, rfl⟩
    simp only [Bool.and_eq_true, decide_eq_true_eq] at hp
    obtain ⟨rfl, hp⟩ := hp
    exact ⟨m, hm, hp⟩
  · rintro ⟨m, hm, hp⟩
    exact ⟨(room_id, user_id), ⟨m, hm, by simp [hp]⟩, rfl⟩

structure Db where
  users : Table String User
  rooms : Table String Room
  members : Members

/-- The lookup of the four changes: an active room of the company, FOR UPDATE. -/
def Db.activeRoom (db : Db) (actor : AuthUserSummary) (room_id : String) : Option Room :=
  (db.rooms.rows room_id).filter (fun room =>
    decide (room.company_id = actor.companyId) && decide (room.status = .active))

variable {db db' : Db} {actor : AuthUserSummary}

theorem Db.activeRoom_eq_some {room : Room} : db.activeRoom actor room_id = some room ↔
      db.rooms.rows room_id = some room ∧ room.company_id = actor.companyId ∧
        room.status = .active := by
  unfold Db.activeRoom
  rw [Option.filter_eq_some_iff]
  simp only [Bool.and_eq_true, decide_eq_true_eq]

/-! ## Requests -/

structure MessengerRoomCreateRequest where
  roomName : String
  roomType : RoomType
  participantUserIds : List String
  translationLocale : String
  deriving DecidableEq, Repr

structure MessengerRoomParticipantsRequest where
  participantUserIds : List String
  expectedUpdatedAt : Time
  deriving DecidableEq, Repr

structure MessengerRoomOwnerTransferRequest where
  newOwnerUserId : String
  expectedUpdatedAt : Time
  deriving DecidableEq, Repr

def _dedupe (values : List String) : List String :=
  values.foldl (fun result value =>
    if value ≠ "" ∧ value ∉ result then result ++ [value] else result) []

/-- The ids of `user_ids` that name active users of the company. -/
def _fetch_company_users (db : Db) (company_id : String) (user_ids : List String) :
    Finset String :=
  user_ids.toFinset.filter (fun id => (db.users.rows id).any (fun u =>
    decide (u.company_id = company_id) && decide (u.status = .active)))

/-! ## The operations -/

def roomNotFound : Error := .not_found "대화방을 찾을 수 없습니다."

def roomChanged : Error := .conflict "대화방이 변경되었습니다. 새로고침 후 다시 시도하세요."

def notColleagues : Error := .value_error "같은 회사의 활성 사용자만 참여할 수 있습니다."

def tooManyParticipants : Error := .value_error "대화방 참여자는 최대 100명까지 지정할 수 있습니다."

/-- INSERT of a new member. -/
def Members.insert (members : Members) (room_id : String) (now : Time) (user_id : String) :
    Members :=
  members.set (room_id, user_id) ⟨now, none, false⟩

/-- INSERT … ON CONFLICT (room_id, user_id) DO UPDATE of a member who comes back. -/
def Members.upsert (members : Members) (room_id : String) (now : Time) (user_id : String) :
    Members :=
  match members.rows (room_id, user_id) with
  | none => members.insert room_id now user_id
  | some m => members.set (room_id, user_id) { m with joined_at := now, left_at := none }

/-- The members of `removed` have left. -/
def Members.remove (members : Members) (room_id : String) (now : Time) (removed : Finset String) :
    Members :=
  members.update (fun key _ => decide (key.1 = room_id) && decide (key.2 ∈ removed))
    (fun m => { m with left_at := some now, is_favorite := false })

def Members.upsertAll (members : Members) (room_id : String) (now : Time) (added : List String) :
    Members :=
  added.foldl (fun members => Members.upsert members room_id now) members

def create_room (db : Db) (actor : AuthUserSummary) (room_id : String)
    (payload : MessengerRoomCreateRequest) (now : Time) : Except Error Db := do
  require (payload.participantUserIds.length ≤ 100) tooManyParticipants
  let participant_ids := _dedupe (actor.userId :: payload.participantUserIds)
  require (participant_ids.length ≤ 100)
    (.value_error "대화방 참여자는 본인을 포함해 최대 100명입니다.")
  require (2 ≤ participant_ids.length ∧
      (payload.roomType = .direct → participant_ids.length = 2))
    (.value_error "대화방은 본인을 포함해 2명 이상이어야 합니다.")
  require (_fetch_company_users db actor.companyId participant_ids = participant_ids.toFinset)
    notColleagues
  -- PRIMARY KEY (id)
  require ((db.rooms.rows room_id).isNone = true) .key_error
  let room : Room := {
    company_id := actor.companyId
    room_type := payload.roomType
    room_name := payload.roomName
    translation_locale := payload.translationLocale
    created_by_user_id := actor.userId
    created_at := now
    updated_at := now
    retention_expires_at := some (now + 14 * minutes (24 * 60))
    status := .active
    closed_at := none
    closed_by_user_id := none }
  return { db with
    rooms := db.rooms.set room_id room
    members := participant_ids.foldl (fun members => Members.insert members room_id now)
      db.members }

def update_room_participants (db : Db) (actor : AuthUserSummary) (room_id : String)
    (payload : MessengerRoomParticipantsRequest) (now : Time) : Except Error Db := do
  require (payload.participantUserIds.length ≤ 100) tooManyParticipants
  let participant_ids := _dedupe payload.participantUserIds
  require (participant_ids.length ≤ 100) tooManyParticipants
  require (actor.userId ∈ participant_ids ∧ 2 ≤ participant_ids.length)
    (.value_error "방 생성자를 포함한 최소 2명의 참여자가 필요합니다.")
  let room ← found (db.activeRoom actor room_id) roomNotFound
  require (room.created_by_user_id = actor.userId)
    (.permission_error "방 생성자만 참여자를 변경할 수 있습니다.")
  require (room.room_type = .direct → participant_ids.length = 2)
    (.value_error "1:1 대화방은 본인을 포함해 정확히 2명이어야 합니다.")
  require (room.updated_at = payload.expectedUpdatedAt) roomChanged
  require (_fetch_company_users db actor.companyId participant_ids = participant_ids.toFinset)
    notColleagues
  let before_ids := db.members.currentIds room_id
  let removed := before_ids \ participant_ids.toFinset
  let added := participant_ids.filter (fun id => decide (id ∉ before_ids))
  let members := (db.members.remove room_id now removed).upsertAll room_id now added
  if removed.Nonempty ∨ added ≠ [] then
    return { db with rooms := db.rooms.set room_id { room with updated_at := now },
                     members := members }
  return { db with members := members }

def transfer_room_owner (db : Db) (actor : AuthUserSummary) (room_id : String)
    (payload : MessengerRoomOwnerTransferRequest) (now : Time) : Except Error Db := do
  require (payload.newOwnerUserId ≠ actor.userId)
    (.state_error "현재 방장과 다른 참여자를 선택하세요.")
  let room ← found (db.activeRoom actor room_id) roomNotFound
  require (room.created_by_user_id = actor.userId)
    (.permission_error "현재 방장만 방장을 이전할 수 있습니다.")
  require (room.updated_at = payload.expectedUpdatedAt) roomChanged
  require (db.members.current room_id payload.newOwnerUserId = true ∧
      (db.users.rows payload.newOwnerUserId).any (fun u => decide (u.status = .active)) = true)
    (.state_error "현재 참여 중인 사용자에게만 방장을 이전할 수 있습니다.")
  return { db with
    rooms := db.rooms.set room_id
      { room with created_by_user_id := payload.newOwnerUserId, updated_at := now } }

/-- A member who leaves. The row of the room keeps its `updated_at`. -/
def leave_room (db : Db) (actor : AuthUserSummary) (room_id : String) (now : Time) :
    Except Error Db := do
  let room ← found ((db.activeRoom actor room_id).filter (fun _ =>
    db.members.current room_id actor.userId)) roomNotFound
  require (room.created_by_user_id ≠ actor.userId)
    (.state_error "방장을 이전하거나 대화방을 삭제한 후 나갈 수 있습니다.")
  return { db with
    members := db.members.update
      (fun key m => decide (key = (room_id, actor.userId)) && m.left_at.isNone)
      (fun m => { m with left_at := some now, is_favorite := false }) }

def delete_room (db : Db) (actor : AuthUserSummary) (room_id : String) (allow_admin : Bool)
    (now : Time) : Except Error Db := do
  let room ← found (db.activeRoom actor room_id) roomNotFound
  require (room.created_by_user_id = actor.userId ∨ allow_admin = true)
    (.permission_error "현재 방장만 대화방을 삭제할 수 있습니다.")
  return { db with
    rooms := db.rooms.set room_id { room with
      status := .deleted
      closed_at := some now
      closed_by_user_id := some actor.userId
      retention_expires_at := some (now + 14 * minutes (24 * 60))
      updated_at := now } }

/-! ## What the operations do -/

/-- The room and its members are as they were. -/
def RoomKept (room_id : String) (db db' : Db) : Prop :=
  db'.rooms.rows room_id = db.rooms.rows room_id ∧
    ∀ u, db'.members.rows (room_id, u) = db.members.rows (room_id, u)

def OtherRoomsKept (room_id : String) (db db' : Db) : Prop := ∀ r ≠ room_id, RoomKept r db db'

theorem RoomKept.current (h : RoomKept room_id db db') (u : String) :
    db'.members.current room_id u = db.members.current room_id u := by
  unfold Members.current
  rw [h.2 u]

theorem RoomKept.currentIds (h : RoomKept room_id db db') :
    db'.members.currentIds room_id = db.members.currentIds room_id := by
  ext u
  rw [Members.mem_currentIds, Members.mem_currentIds, h.current]

theorem RoomKept.trans {db'' : Db} (h : RoomKept room_id db db') (h' : RoomKept room_id db' db'') :
    RoomKept room_id db db'' :=
  ⟨h'.1.trans h.1, fun u => (h'.2 u).trans (h.2 u)⟩

/-- Members who come in, one after another: the members of the room are the list and those
who were there before. -/
theorem current_foldl {f : Members → String → Members}
    (hf : ∀ members u v, (f members u).current room_id v = true ↔
      v = u ∨ members.current room_id v = true) (ids : List String) (members : Members) (v : String) :
    (ids.foldl f members).current room_id v = true ↔
      v ∈ ids ∨ members.current room_id v = true := by
  induction ids generalizing members with
  | nil => simp
  | cons u ids ih =>
    rw [List.foldl_cons, ih, hf, List.mem_cons]
    constructor
    · rintro (h | h | h)
      · exact Or.inl (Or.inr h)
      · exact Or.inl (Or.inl h)
      · exact Or.inr h
    · rintro ((h | h) | h)
      · exact Or.inr (Or.inl h)
      · exact Or.inl h
      · exact Or.inr (Or.inr h)

theorem rows_foldl {f : Members → String → Members} {key : String × String}
    (hf : ∀ members u, (f members u).rows key = members.rows key) (ids : List String)
    (members : Members) : (ids.foldl f members).rows key = members.rows key := by
  induction ids generalizing members with
  | nil => rfl
  | cons u ids ih => rw [List.foldl_cons, ih, hf]

theorem current_insert (members : Members) (room_id : String) (now : Time) (u v : String) :
    (members.insert room_id now u).current room_id v = true ↔
      v = u ∨ members.current room_id v = true := by
  unfold Members.insert Members.current
  rw [Table.rows_set]
  by_cases h : v = u
  · simp [h]
  · simp [h]

theorem rows_insert {u : String} {key : String × String} (h : key.1 ≠ room_id) :
    (members.insert room_id now u).rows key = members.rows key := by
  unfold Members.insert
  apply Table.rows_set_ne
  rintro rfl
  exact h rfl

theorem current_upsert (members : Members) (room_id : String) (now : Time) (u v : String) :
    (members.upsert room_id now u).current room_id v = true ↔
      v = u ∨ members.current room_id v = true := by
  unfold Members.upsert
  cases hm : members.rows (room_id, u) with
  | none => exact current_insert members room_id now u v
  | some m =>
    unfold Members.current
    rw [Table.rows_set]
    by_cases h : v = u
    · simp [h]
    · simp [h]

theorem rows_upsert {u : String} {key : String × String} (h : key.1 ≠ room_id) :
    (members.upsert room_id now u).rows key = members.rows key := by
  unfold Members.upsert
  cases hm : members.rows (room_id, u) with
  | none => exact rows_insert h
  | some m =>
    apply Table.rows_set_ne
    rintro rfl
    exact h rfl

theorem rows_remove {r u : String} {removed : Finset String} (h : r ≠ room_id) :
    (members.remove room_id now removed).rows (r, u) = members.rows (r, u) := by
  unfold Members.remove
  rw [Table.rows_update]
  cases members.rows (r, u) <;> simp [h]

theorem current_remove (members : Members) (room_id : String) (now : Time)
    (removed : Finset String) (v : String) :
    (members.remove room_id now removed).current room_id v = true ↔
      members.current room_id v = true ∧ v ∉ removed := by
  unfold Members.remove Members.current
  rw [Table.rows_update]
  cases members.rows (room_id, v) with
  | none => simp
  | some m => by_cases hv : v ∈ removed <;> simp [hv]

theorem mem_dedupe {values : List String} {v : String} :
    v ∈ _dedupe values ↔ v ≠ "" ∧ v ∈ values := by
  have hfold : ∀ (l result : List String), v ∈ l.foldl (fun result value =>
      if value ≠ "" ∧ value ∉ result then result ++ [value] else result) result ↔
      v ∈ result ∨ v ≠ "" ∧ v ∈ l := by
    intro l
    induction l with
    | nil => simp
    | cons x l ih =>
      intro result
      rw [List.foldl_cons, ih]
      by_cases hx : x ≠ "" ∧ x ∉ result
      · rw [if_pos hx]
        by_cases hv : v = x
        · subst hv
          simp [hx.1]
        · simp [hv]
      · rw [if_neg hx]
        by_cases hv : v = x
        · subst hv
          by_cases hempty : v = ""
          · simp [hempty]
          · simp only [hempty, ne_eq, not_false_eq_true, true_and, not_not] at hx
            simp [hx]
        · simp [hv]
  unfold _dedupe
  rw [hfold]
  simp

theorem create_room_ok {payload : MessengerRoomCreateRequest}
    (h : create_room db actor room_id payload now = .ok db') :
    db.rooms.rows room_id = none ∧ OtherRoomsKept room_id db db' ∧
      ∃ (room : Room) (ids : List String),
      db'.rooms.rows room_id = some room ∧ room.status = .active ∧
      room.created_by_user_id = actor.userId ∧ actor.userId ∈ ids ∧
      (room.room_type = .direct → ids.length = 2) ∧
      ∀ v, db'.members.current room_id v = true ↔
        v ∈ ids ∨ db.members.current room_id v = true := by
  unfold create_room at h
  simp only [bind_ok, require_ok] at h
  obtain ⟨_, _, _, _, _, hcount, _, _, _, hfree, h⟩ := h
  cases h
  refine ⟨by simpa using hfree, ?_, _, _dedupe (actor.userId :: payload.participantUserIds),
    Table.rows_set_self .., rfl, rfl, mem_dedupe.2 ⟨actor.drawn, by simp⟩, hcount.2, ?_⟩
  · intro r hr
    refine ⟨Table.rows_set_ne _ _ hr, fun u => ?_⟩
    exact rows_foldl (fun _ _ => rows_insert hr) _ _
  · exact current_foldl (fun _ _ _ => current_insert ..) _ _

theorem transfer_room_owner_ok {payload : MessengerRoomOwnerTransferRequest}
    (h : transfer_room_owner db actor room_id payload now = .ok db') :
    ∃ room, db.activeRoom actor room_id = some room ∧
      room.created_by_user_id = actor.userId ∧ payload.newOwnerUserId ≠ actor.userId ∧
      db.members.current room_id payload.newOwnerUserId = true ∧
      db' = { db with rooms := db.rooms.set room_id { room with
        created_by_user_id := payload.newOwnerUserId, updated_at := now } } := by
  unfold transfer_room_owner at h
  simp only [bind_ok, require_ok, found_ok] at h
  obtain ⟨_, hother, room, hroom, _, howner, _, _, _, ⟨hcurrent, _⟩, h⟩ := h
  cases h
  exact ⟨room, hroom, howner, hother, hcurrent, rfl⟩

theorem delete_room_ok {allow_admin : Bool}
    (h : delete_room db actor room_id allow_admin now = .ok db') :
    ∃ room deleted : Room, db.activeRoom actor room_id = some room ∧ deleted.status = .deleted ∧
      deleted.room_type = room.room_type ∧
      db' = { db with rooms := db.rooms.set room_id deleted } := by
  unfold delete_room at h
  simp only [bind_ok, require_ok, found_ok] at h
  obtain ⟨room, hroom, _, _, h⟩ := h
  cases h
  refine ⟨room, _, hroom, ?_, ?_, rfl⟩
  · rfl
  · rfl

theorem leave_room_ok (h : leave_room db actor room_id now = .ok db') :
    ∃ room, db.activeRoom actor room_id = some room ∧
      room.created_by_user_id ≠ actor.userId ∧
      db.members.current room_id actor.userId = true ∧ OtherRoomsKept room_id db db' ∧
      db'.rooms = db.rooms ∧ ∀ v, db'.members.current room_id v = true ↔
        v ≠ actor.userId ∧ db.members.current room_id v = true := by
  unfold leave_room at h
  simp only [bind_ok, require_ok, found_ok, Option.filter_eq_some_iff] at h
  obtain ⟨room, ⟨hroom, hcurrent⟩, _, howner, h⟩ := h
  cases h
  refine ⟨room, hroom, howner, hcurrent, ?_, rfl, ?_⟩
  · intro r hr
    refine ⟨rfl, fun u => ?_⟩
    rw [Table.rows_update]
    cases db.members.rows (r, u) <;> simp [hr]
  · intro v
    unfold Members.current
    rw [Table.rows_update]
    by_cases hv : v = actor.userId
    · subst hv
      cases hm : db.members.rows (room_id, actor.userId) with
      | none => simp
      | some m => cases hleft : m.left_at <;> simp [hleft]
    · cases db.members.rows (room_id, v) <;> simp [hv]

theorem update_room_participants_ok {payload : MessengerRoomParticipantsRequest}
    (h : update_room_participants db actor room_id payload now = .ok db') :
    ∃ (room : Room) (ids : List String), db.activeRoom actor room_id = some room ∧
      room.created_by_user_id = actor.userId ∧ room.updated_at = payload.expectedUpdatedAt ∧
      ids = _dedupe payload.participantUserIds ∧ actor.userId ∈ ids ∧
      (room.room_type = .direct → ids.length = 2) ∧ OtherRoomsKept room_id db db' ∧
      db'.rooms.rows room_id = some (if ids.toFinset = db.members.currentIds room_id then room
        else { room with updated_at := now }) ∧
      ∀ v, db'.members.current room_id v = true ↔ v ∈ ids := by
  unfold update_room_participants at h
  simp only [bind_ok, require_ok, found_ok] at h
  obtain ⟨_, _, _, _, _, ⟨hactor, _⟩, room, hroom, _, howner, _, hdirect, _, hstamp, _, _, h⟩ := h
  refine ⟨room, _dedupe payload.participantUserIds, hroom, howner, hstamp, rfl, hactor, hdirect,
    ?_⟩
  generalize _dedupe payload.participantUserIds = ids at h hactor hdirect ⊢
  have hchanged : ((db.members.currentIds room_id \ ids.toFinset).Nonempty ∨
      ids.filter (fun id => decide (id ∉ db.members.currentIds room_id)) ≠ []) ↔
      ids.toFinset ≠ db.members.currentIds room_id := by
    rw [← not_iff_not]
    simp only [not_or, Finset.not_nonempty_iff_eq_empty, Finset.sdiff_eq_empty_iff_subset, ne_eq,
      not_not, List.filter_eq_nil_iff, decide_eq_true_eq]
    constructor
    · rintro ⟨hsub, hadded⟩
      exact Finset.Subset.antisymm (fun id hid => hadded id (List.mem_toFinset.1 hid)) hsub
    · rintro heq
      exact ⟨heq ▸ Finset.Subset.refl _, fun id hid => heq ▸ List.mem_toFinset.2 hid⟩
  have hkept : ∀ r ≠ room_id, ∀ u, ((db.members.remove room_id now
      (db.members.currentIds room_id \ ids.toFinset)).upsertAll room_id now
      (ids.filter (fun id => decide (id ∉ db.members.currentIds room_id)))).rows (r, u) =
        db.members.rows (r, u) := by
    intro r hr u
    unfold Members.upsertAll
    rw [rows_foldl (fun _ _ => rows_upsert hr), rows_remove hr]
  have hcurrent : ∀ v, ((db.members.remove room_id now
      (db.members.currentIds room_id \ ids.toFinset)).upsertAll room_id now
      (ids.filter (fun id => decide (id ∉ db.members.currentIds room_id)))).current room_id v =
        true ↔ v ∈ ids := by
    intro v
    unfold Members.upsertAll
    rw [current_foldl (fun _ _ _ => current_upsert ..), current_remove, List.mem_filter,
      decide_eq_true_eq, Finset.mem_sdiff, List.mem_toFinset, Members.mem_currentIds]
    by_cases hv : db.members.current room_id v = true
    · simp [hv]
    · simp [hv]
  by_cases hc : ids.toFinset = db.members.currentIds room_id
  · rw [if_neg (by rw [hchanged]; exact not_not.2 hc)] at h
    cases h
    refine ⟨fun r hr => ⟨rfl, fun u => hkept r hr u⟩, ?_, hcurrent⟩
    rw [if_pos hc]
    exact (Db.activeRoom_eq_some.1 hroom).1
  · rw [if_pos (hchanged.2 hc)] at h
    cases h
    refine ⟨fun r hr => ⟨Table.rows_set_ne _ _ hr, fun u => hkept r hr u⟩, ?_, hcurrent⟩
    rw [if_neg hc, Table.rows_set_self]

end moaworks.messenger_rooms
