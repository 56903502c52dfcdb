-- The laws of the rooms over all runs: who owns a room, how many a direct room has, what a
-- deleted room keeps, and what a change of the participants is based on.
import MoaWorks.MessengerRuns

namespace moaworks.messenger_rooms

variable {db db' : Db} {actor : AuthUserSummary} {now : Time} {room_id : String} {w : World}
  {k : Nat} {entry : Entry}

/-! ## One call -/

theorem Call.kept {call : Call} (h : call.perform db actor now = .ok db') :
    OtherRoomsKept call.room_id db db' := by
  cases call with
  | create_room => exact (create_room_ok h).2.1
  | update_room_participants =>
    obtain ⟨_, _, _, _, _, _, _, _, hkept, _⟩ := update_room_participants_ok h
    exact hkept
  | transfer_room_owner =>
    obtain ⟨_, _, _, _, _, rfl⟩ := transfer_room_owner_ok h
    exact fun r hr => ⟨Table.rows_set_ne _ _ hr, fun _ => rfl⟩
  | leave_room =>
    obtain ⟨_, _, _, _, hkept, _⟩ := leave_room_ok h
    exact hkept
  | delete_room =>
    obtain ⟨_, _, _, _, _, rfl⟩ := delete_room_ok h
    exact fun r hr => ⟨Table.rows_set_ne _ _ hr, fun _ => rfl⟩

/-- A call that succeeds found its room active, or made it. -/
theorem Call.room_active {call : Call} (h : call.perform db actor now = .ok db') {room : Room}
    (hroom : db.rooms.rows call.room_id = some room) : room.status = .active := by
  have hactive : ∀ found, db.activeRoom actor call.room_id = some found →
      room.status = .active := by
    intro found hfound
    obtain ⟨hrow, _, hstatus⟩ := Db.activeRoom_eq_some.1 hfound
    rw [hrow] at hroom
    cases hroom
    exact hstatus
  cases call with
  | create_room =>
    have hfree := (create_room_ok h).1
    unfold Call.room_id at hroom
    simp only [hfree, reduceCtorEq] at hroom
  | update_room_participants =>
    obtain ⟨found, _, hfound, _⟩ := update_room_participants_ok h
    exact hactive found hfound
  | transfer_room_owner =>
    obtain ⟨found, hfound, _⟩ := transfer_room_owner_ok h
    exact hactive found hfound
  | leave_room =>
    obtain ⟨found, hfound, _⟩ := leave_room_ok h
    exact hactive found hfound
  | delete_room =>
    obtain ⟨found, _, hfound, _⟩ := delete_room_ok h
    exact hactive found hfound

/-! ## The invariant of one room -/

/-- The owner of an active room is a member, and a direct room has at most two of them. A room
that does not exist has no rows of members. -/
def RoomSound (room_id : String) (db : Db) : Prop :=
  match db.rooms.rows room_id with
  | none => ∀ u, db.members.rows (room_id, u) = none
  | some room =>
    (room.status = .active → db.members.current room_id room.created_by_user_id = true) ∧
      (room.room_type = .direct → (db.members.currentIds room_id).card ≤ 2)

theorem roomSound_of_some {room : Room} (hroom : db.rooms.rows room_id = some room) :
    RoomSound room_id db ↔
      (room.status = .active → db.members.current room_id room.created_by_user_id = true) ∧
        (room.room_type = .direct → (db.members.currentIds room_id).card ≤ 2) := by
  unfold RoomSound
  rw [hroom]

theorem RoomSound.of_kept (h : RoomSound room_id db) (hkept : RoomKept room_id db db') :
    RoomSound room_id db' := by
  unfold RoomSound at h ⊢
  rw [hkept.1]
  cases hroom : db.rooms.rows room_id with
  | none =>
    rw [hroom] at h
    exact fun u => (hkept.2 u).trans (h u)
  | some room =>
    rw [hroom] at h
    simp only [hkept.current, hkept.currentIds]
    exact h

theorem card_currentIds_le {members : Members} {ids : List String}
    (h : ∀ v, members.current room_id v = true → v ∈ ids) :
    (members.currentIds room_id).card ≤ ids.length := by
  have hsub : members.currentIds room_id ⊆ ids.toFinset := by
    intro v hv
    exact List.mem_toFinset.2 (h v (Members.mem_currentIds.1 hv))
  exact (Finset.card_le_card hsub).trans (List.toFinset_card_le ids)

theorem RoomSound.create_room {payload : MessengerRoomCreateRequest} (hsound : RoomSound room_id db)
    (h : create_room db actor room_id payload now = .ok db') : RoomSound room_id db' := by
  obtain ⟨hfree, _, room, ids, hroom, _, howner, hactor, hdirect, hmembers⟩ := create_room_ok h
  unfold RoomSound at hsound
  rw [hfree] at hsound
  have hids : ∀ v, db'.members.current room_id v = true ↔ v ∈ ids := by
    intro v
    rw [hmembers]
    simp [Members.current, hsound v]
  rw [roomSound_of_some hroom, howner, hids]
  refine ⟨fun _ => hactor, fun htype => ?_⟩
  rw [← hdirect htype]
  exact card_currentIds_le (fun v => (hids v).1)

theorem RoomSound.update_room_participants {payload : MessengerRoomParticipantsRequest}
    (h : update_room_participants db actor room_id payload now = .ok db') :
    RoomSound room_id db' := by
  obtain ⟨room, ids, _, howner, _, _, hactor, hdirect, _, hrow, hmembers⟩ :=
    update_room_participants_ok h
  have hcard : room.room_type = .direct → (db'.members.currentIds room_id).card ≤ 2 := by
    intro htype
    rw [← hdirect htype]
    exact card_currentIds_le (fun v => (hmembers v).1)
  rw [roomSound_of_some hrow]
  split_ifs with hsame
  · exact ⟨fun _ => by rw [howner, hmembers]; exact hactor, hcard⟩
  · refine ⟨fun _ => ?_, hcard⟩
    change db'.members.current room_id room.created_by_user_id = true
    rw [howner, hmembers]
    exact hactor

theorem RoomSound.transfer_room_owner {payload : MessengerRoomOwnerTransferRequest}
    (hsound : RoomSound room_id db) (h : transfer_room_owner db actor room_id payload now = .ok db') :
    RoomSound room_id db' := by
  obtain ⟨room, hfound, _, _, hcurrent, rfl⟩ := transfer_room_owner_ok h
  rw [roomSound_of_some (Db.activeRoom_eq_some.1 hfound).1] at hsound
  rw [roomSound_of_some (Table.rows_set_self ..)]
  exact ⟨fun _ => hcurrent, hsound.2⟩

theorem RoomSound.leave_room (hsound : RoomSound room_id db)
    (h : leave_room db actor room_id now = .ok db') : RoomSound room_id db' := by
  obtain ⟨room, hfound, howner, _, _, hrooms, hmembers⟩ := leave_room_ok h
  have hrow := (Db.activeRoom_eq_some.1 hfound).1
  rw [roomSound_of_some hrow] at hsound
  rw [← hrooms] at hrow
  rw [roomSound_of_some hrow]
  refine ⟨fun hactive => (hmembers _).2 ⟨howner, hsound.1 hactive⟩, fun hdirect => ?_⟩
  have hsub : db'.members.currentIds room_id ⊆ db.members.currentIds room_id := by
    intro v hv
    rw [Members.mem_currentIds] at hv ⊢
    exact ((hmembers v).1 hv).2
  exact (Finset.card_le_card hsub).trans (hsound.2 hdirect)

theorem RoomSound.delete_room {allow_admin : Bool} (hsound : RoomSound room_id db)
    (h : delete_room db actor room_id allow_admin now = .ok db') : RoomSound room_id db' := by
  obtain ⟨room, deleted, hfound, hstatus, htype, rfl⟩ := delete_room_ok h
  rw [roomSound_of_some (Db.activeRoom_eq_some.1 hfound).1] at hsound
  rw [roomSound_of_some (Table.rows_set_self ..), htype, hstatus]
  exact ⟨nofun, hsound.2⟩

/-- Each call keeps each room sound: its own by its checks, the others since it leaves them. -/
theorem RoomSound.perform {call : Call} (h : call.perform db actor now = .ok db')
    (hsound : RoomSound room_id db) : RoomSound room_id db' := by
  by_cases hroom : room_id = call.room_id
  · subst hroom
    cases call with
    | create_room => exact hsound.create_room h
    | update_room_participants => exact RoomSound.update_room_participants h
    | transfer_room_owner => exact hsound.transfer_room_owner h
    | leave_room => exact hsound.leave_room h
    | delete_room => exact hsound.delete_room h
  · exact hsound.of_kept (Call.kept h room_id hroom)

theorem reachable_sound (h : machine.Reachable w) (room_id : String) : RoomSound room_id w.db := by
  refine Machine.Reachable.invariant (I := fun w => RoomSound room_id w.db) ?_ ?_ h
  · rintro _ ⟨users, rfl⟩
    exact fun _ => rfl
  · intro w step w' hsound hstep
    obtain ⟨_, db', hok, rfl⟩ := step_eq_some.1 hstep
    obtain ⟨now, event⟩ := step
    cases event with
    | request actor call => exact RoomSound.perform hok hsound
    | directory users =>
      cases hok
      exact hsound

/-! ## The moments of a run -/

/-- What a call of the log did to a room that it did not name. -/
theorem entry_kept (h : machine.Reachable w) (hk : w.log[k]? = some entry)
    (hother : ∀ actor call, entry.event = .request actor call → call.room_id ≠ room_id) :
    RoomKept room_id (w.after k) (w.after (k + 1)) := by
  have hok := (recorded h hk).2
  cases hevent : entry.event with
  | request actor call =>
    rw [hevent] at hok
    exact Call.kept hok room_id (hother actor call hevent).symm
  | directory users =>
    rw [hevent] at hok
    obtain hdb : { w.after k with users := users } = w.after (k + 1) := Except.ok.inj hok
    rw [← hdb]
    exact ⟨rfl, fun _ => rfl⟩

/-- The version that a change is based on was there when it was read. -/
theorem read_exists (h : machine.Reachable w) (hk : w.log[k]? = some entry)
    {payload : MessengerRoomParticipantsRequest} {seen : Nat}
    (hevent : entry.event = .request actor (.update_room_participants room_id payload seen)) :
    seen ≤ k ∧ (w.after seen).rooms.rows room_id ≠ none := by
  induction h generalizing k entry with
  | start hstart =>
    obtain ⟨users, rfl⟩ := hstart
    cases hk
  | @next w w' step _ _ hstep ih =>
    obtain ⟨hread, db', hok, rfl⟩ := step_eq_some.1 hstep
    rcases Nat.lt_or_ge k w.log.length with hlt | hge
    · rw [List.getElem?_append_left hlt] at hk
      obtain ⟨hseen, hexists⟩ := ih hk hevent
      rw [after_of_le rfl (hseen.trans hlt.le)]
      exact ⟨hseen, hexists⟩
    · have hlen := (List.getElem?_eq_some_iff.1 hk).1
      rw [List.length_append, List.length_singleton] at hlen
      obtain rfl : k = w.log.length := by omega
      rw [List.getElem?_append_right le_rfl, Nat.sub_self] at hk
      cases hk
      change step.2 = _ at hevent
      rw [hevent] at hread
      obtain ⟨hseen, hstamp⟩ := hread
      obtain ⟨room, hroom, _⟩ := (Option.any_eq_true _ _).1 hstamp
      rw [after_of_le rfl hseen]
      exact ⟨hseen, Option.ne_none_iff_exists'.2 ⟨room, hroom⟩⟩

theorem entry_at (hk : k < w.log.length) : ∃ entry, w.log[k]? = some entry :=
  ⟨w.log[k], List.getElem?_eq_getElem hk⟩

/-- No call finds a deleted room, so none changes it or its members. -/
theorem deleted_kept (h : machine.Reachable w) {i j : Nat} (hij : i ≤ j) (hj : j ≤ w.log.length)
    {room : Room} (hroom : (w.after i).rooms.rows room_id = some room)
    (hdeleted : room.status = .deleted) : RoomKept room_id (w.after i) (w.after j) := by
  induction j, hij using Nat.le_induction with
  | base => exact ⟨rfl, fun _ => rfl⟩
  | succ k hik ih =>
    have hkept := ih (by omega)
    obtain ⟨entry, hk⟩ := entry_at hj
    refine hkept.trans (entry_kept h hk ?_)
    rintro actor call hevent rfl
    have hok := (recorded h hk).2
    rw [hevent] at hok
    have hactive := Call.room_active hok (hkept.1.trans hroom)
    rw [hdeleted] at hactive
    cases hactive

/-- A room that was made stays in the table. -/
theorem room_stays (h : machine.Reachable w) {i j : Nat} (hij : i ≤ j) (hj : j ≤ w.log.length)
    (hroom : (w.after i).rooms.rows room_id ≠ none) : (w.after j).rooms.rows room_id ≠ none := by
  induction j, hij using Nat.le_induction with
  | base => exact hroom
  | succ k hik ih =>
    have hstays := ih (by omega)
    obtain ⟨entry, hk⟩ := entry_at hj
    by_cases hother : ∀ actor call, entry.event = .request actor call → call.room_id ≠ room_id
    · rw [(entry_kept h hk hother).1]
      exact hstays
    · push Not at hother
      obtain ⟨actor, call, hevent, rfl⟩ := hother
      have hok := (recorded h hk).2
      rw [hevent] at hok
      generalize w.after (k + 1) = db' at hok ⊢
      cases call with
      | create_room => exact absurd (create_room_ok hok).1 hstays
      | update_room_participants =>
        obtain ⟨_, _, _, _, _, _, _, _, _, hrow, _⟩ := update_room_participants_ok hok
        exact Option.ne_none_iff_exists'.2 ⟨_, hrow⟩
      | transfer_room_owner =>
        obtain ⟨_, _, _, _, _, rfl⟩ := transfer_room_owner_ok hok
        exact Option.ne_none_iff_exists'.2 ⟨_, Table.rows_set_self ..⟩
      | leave_room =>
        obtain ⟨_, _, _, _, _, hrooms, _⟩ := leave_room_ok hok
        rw [hrooms]
        exact hstays
      | delete_room =>
        obtain ⟨_, _, _, _, _, rfl⟩ := delete_room_ok hok
        exact Option.ne_none_iff_exists'.2 ⟨_, Table.rows_set_self ..⟩

/-! ## The version that a change is based on -/

/-- The room has one owner and the same members in both. -/
def SameRoom (room_id : String) (db db' : Db) : Prop :=
  (db.rooms.rows room_id).map Room.created_by_user_id =
      (db'.rooms.rows room_id).map Room.created_by_user_id ∧
    db.members.currentIds room_id = db'.members.currentIds room_id

/-- The `k`-th call of the run is a change of the participants. -/
def World.Changes (w : World) (k : Nat) (room_id : String)
    (payload : MessengerRoomParticipantsRequest) (seen : Nat) : Prop :=
  ∃ entry actor, w.log[k]? = some entry ∧
    entry.event = .request actor (.update_room_participants room_id payload seen)

/-- A member leaves the room. -/
def Entry.Leaves (entry : Entry) (room_id : String) : Prop :=
  ∃ actor, entry.event = .request actor (.leave_room room_id)

/-- The room gets another owner, or other members. -/
def Entry.Moves (entry : Entry) (room_id : String) : Prop :=
  (∃ actor payload, entry.event = .request actor (.transfer_room_owner room_id payload)) ∨
    ∃ actor payload seen,
      entry.event = .request actor (.update_room_participants room_id payload seen) ∧
        (_dedupe payload.participantUserIds).toFinset ≠ entry.db.members.currentIds room_id

/-- Since the version that the change is based on nobody has left the room, and no other call
changed it with the very clock reading that names this version. -/
def World.Undisturbed (w : World) (k : Nat) (room_id : String)
    (payload : MessengerRoomParticipantsRequest) (seen : Nat) : Prop :=
  ∀ j entry, seen ≤ j → j < k → w.log[j]? = some entry →
    ¬ entry.Leaves room_id ∧ ¬ (entry.Moves room_id ∧ entry.now = payload.expectedUpdatedAt)

/-- The room is active, with this version. -/
def ActiveAt (room_id : String) (stamp : Time) (db : Db) : Prop :=
  ∃ room, db.rooms.rows room_id = some room ∧ room.status = .active ∧ room.updated_at = stamp

theorem RoomKept.sameRoom (h : RoomKept room_id db db') : SameRoom room_id db db' := ⟨by rw [h.1], h.currentIds.symm⟩

/-- A call that leaves the version as it is, and by which nobody leaves, changes nothing. -/
theorem quiet_step (h : machine.Reachable w) (hk : w.log[k]? = some entry) {stamp : Time}
    (hexists : (w.after k).rooms.rows room_id ≠ none)
    (hafter : ActiveAt room_id stamp (w.after (k + 1))) (hstay : ¬ entry.Leaves room_id)
    (hmoves : ¬ (entry.Moves room_id ∧ entry.now = stamp)) :
    ActiveAt room_id stamp (w.after k) ∧ SameRoom room_id (w.after k) (w.after (k + 1)) := by
  have hdb := (recorded h hk).1
  by_cases hother : ∀ actor call, entry.event = .request actor call → call.room_id ≠ room_id
  · have hkept := entry_kept h hk hother
    unfold ActiveAt at hafter
    rw [hkept.1] at hafter
    exact ⟨hafter, hkept.sameRoom⟩
  · push Not at hother
    obtain ⟨actor, call, hevent, rfl⟩ := hother
    have hok := (recorded h hk).2
    rw [hevent] at hok
    obtain ⟨room', hrow', hactive', hstamp'⟩ := hafter
    generalize w.after (k + 1) = db' at hok hrow' ⊢
    cases call with
    | create_room => exact absurd (create_room_ok hok).1 hexists
    | update_room_participants r payload seen =>
      obtain ⟨room, ids, hfound, _, _, hids, _, _, _, hrow, hmembers⟩ :=
        update_room_participants_ok hok
      obtain ⟨hbefore, _, hactive⟩ := Db.activeRoom_eq_some.1 hfound
      by_cases hsame : ids.toFinset = (w.after k).members.currentIds r
      · rw [if_pos hsame] at hrow
        obtain rfl : room = room' := Option.some.inj (hrow.symm.trans hrow')
        refine ⟨⟨room, hbefore, hactive, hstamp'⟩,
          congrArg (Option.map _) (hbefore.trans hrow.symm), ?_⟩
        change (w.after k).members.currentIds r = db'.members.currentIds r
        ext v
        rw [← hsame, Members.mem_currentIds, hmembers, List.mem_toFinset]
      · rw [if_neg hsame] at hrow
        obtain rfl := Option.some.inj (hrow.symm.trans hrow')
        refine absurd ⟨Or.inr ⟨actor, payload, seen, hevent, ?_⟩, hstamp'⟩ hmoves
        rw [hdb, ← hids]
        exact hsame
    | transfer_room_owner r payload =>
      obtain ⟨room, _, _, _, _, rfl⟩ := transfer_room_owner_ok hok
      obtain rfl := Option.some.inj ((Table.rows_set_self ..).symm.trans hrow')
      exact absurd ⟨Or.inl ⟨actor, payload, hevent⟩, hstamp'⟩ hmoves
    | leave_room => exact absurd ⟨actor, hevent⟩ hstay
    | delete_room =>
      obtain ⟨_, deleted, _, hdeleted, _, rfl⟩ := delete_room_ok hok
      obtain rfl := Option.some.inj ((Table.rows_set_self ..).symm.trans hrow')
      rw [hdeleted] at hactive'
      cases hactive'

/-- When nobody has left since, the version tells the owner and the members of the room. -/
theorem same_of_undisturbed (h : machine.Reachable w) {seen : Nat}
    {payload : MessengerRoomParticipantsRequest} (hchange : w.Changes k room_id payload seen)
    (hundisturbed : w.Undisturbed k room_id payload seen) {j : Nat} (hseen : seen ≤ j) (hjk : j ≤ k) :
    SameRoom room_id (w.after j) (w.after k) := by
  obtain ⟨entry, actor, hk, hevent⟩ := hchange
  have hlen := (List.getElem?_eq_some_iff.1 hk).1
  have hok := (recorded h hk).2
  rw [hevent] at hok
  obtain ⟨room, _, hfound, _, hstamp, _⟩ := update_room_participants_ok hok
  obtain ⟨hrow, _, hactive⟩ := Db.activeRoom_eq_some.1 hfound
  have hread := read_exists h hk hevent
  suffices hback : ActiveAt room_id payload.expectedUpdatedAt (w.after j) ∧
      SameRoom room_id (w.after j) (w.after k) from hback.2
  -- The induction goes back from the change to the version that it is based on.
  refine Nat.decreasingInduction' (P := fun j => ActiveAt room_id payload.expectedUpdatedAt
    (w.after j) ∧ SameRoom room_id (w.after j) (w.after k)) ?_ hjk
    ⟨⟨room, hrow, hactive, hstamp⟩, rfl, rfl⟩
  rintro i hik hji ⟨hafter, howner, hmembers⟩
  obtain ⟨entry', hi⟩ := entry_at (hik.trans hlen)
  obtain ⟨hstay, hmoves⟩ := hundisturbed i entry' (hseen.trans hji) hik hi
  have hexists := room_stays h (hseen.trans hji) (hik.trans hlen).le hread.2
  obtain ⟨hbefore, hsame⟩ := quiet_step h hi hexists hafter hstay hmoves
  exact ⟨hbefore, hsame.1.trans howner, hsame.2.trans hmembers⟩

/-- A call by which somebody leaves, or that moves the room, shows in the room. -/
theorem not_same_of_disturbed (h : machine.Reachable w) (hk : w.log[k]? = some entry)
    (hdisturbed : entry.Leaves room_id ∨ entry.Moves room_id) :
    ¬ SameRoom room_id (w.after k) (w.after (k + 1)) := by
  obtain ⟨hdb, hok⟩ := recorded h hk
  rintro ⟨howner, hmembers⟩
  rcases hdisturbed with ⟨actor, hevent⟩ | ⟨actor, payload, hevent⟩ |
    ⟨actor, payload, seen, hevent, hchanged⟩
  · rw [hevent] at hok
    obtain ⟨_, _, _, hcurrent, _, _, hleft⟩ := leave_room_ok hok
    rw [← Members.mem_currentIds, hmembers, Members.mem_currentIds, hleft] at hcurrent
    exact hcurrent.1 rfl
  · rw [hevent] at hok
    obtain ⟨room, hfound, hactor, hother, _, hafter⟩ := transfer_room_owner_ok hok
    rw [hafter, (Db.activeRoom_eq_some.1 hfound).1] at howner
    simp only [Table.rows_set_self, Option.map_some, Option.some.injEq] at howner
    exact hother (howner.symm.trans hactor)
  · rw [hevent] at hok
    obtain ⟨_, ids, _, _, _, rfl, _, _, _, _, hafter⟩ := update_room_participants_ok hok
    apply hchanged
    rw [hdb, hmembers]
    ext v
    rw [Members.mem_currentIds, hafter, List.mem_toFinset]

/-! ## The laws -/

structure Laws (w : World) : Prop where
  owner_is_member : ∀ room_id room, w.db.rooms.rows room_id = some room →
    room.status = .active → w.db.members.current room_id room.created_by_user_id = true
  deleted_stays : ∀ i j room_id room, i ≤ j → j ≤ w.log.length →
    (w.after i).rooms.rows room_id = some room → room.status = .deleted →
      RoomKept room_id (w.after i) (w.after j)
  direct_has_two : ∀ room_id room, w.db.rooms.rows room_id = some room →
    room.room_type = .direct → (w.db.members.currentIds room_id).card ≤ 2
  /-- A change of the participants meets the owner and the members of its version. -/
  version_holds : ∀ k room_id payload seen, w.Changes k room_id payload seen →
    ∀ j, seen ≤ j → j ≤ k → SameRoom room_id (w.after j) (w.after k)
  /-- A change does not bring back who has left since its version. -/
  nobody_comes_back : ∀ k room_id payload seen, w.Changes k room_id payload seen →
    ∀ u, (w.after k).members.current room_id u = false →
      (w.after (k + 1)).members.current room_id u = true →
        ∀ j, seen ≤ j → j ≤ k → (w.after j).members.current room_id u = false

/-- The rooms keep their laws in just the runs in which nobody leaves a room between the reading
of its version and a change of its participants that is based on it. -/
theorem rooms_are_lawful_iff (w : World) (h : machine.Reachable w) :
    Laws w ↔ ∀ k room_id payload seen, w.Changes k room_id payload seen →
      w.Undisturbed k room_id payload seen := by
  constructor
  · rintro hlaws k room_id payload seen hchange j entry hseen hjk hj
    have hsame : SameRoom room_id (w.after j) (w.after (j + 1)) := by
      have hj0 := hlaws.version_holds k room_id payload seen hchange j hseen hjk.le
      have hj1 := hlaws.version_holds k room_id payload seen hchange (j + 1) (by omega) hjk
      exact ⟨hj0.1.trans hj1.1.symm, hj0.2.trans hj1.2.symm⟩
    exact ⟨fun hleaves => not_same_of_disturbed h hj (Or.inl hleaves) hsame,
      fun hmoves => not_same_of_disturbed h hj (Or.inr hmoves.1) hsame⟩
  · intro hundisturbed
    have hsame : ∀ k room_id payload seen, w.Changes k room_id payload seen →
        ∀ j, seen ≤ j → j ≤ k → SameRoom room_id (w.after j) (w.after k) :=
      fun k room_id payload seen hchange j hseen hjk =>
        same_of_undisturbed h hchange (hundisturbed k room_id payload seen hchange) hseen hjk
    refine ⟨?_, fun i j room_id room hij hj => deleted_kept h hij hj, ?_, hsame, ?_⟩
    · intro room_id room hroom
      exact ((roomSound_of_some hroom).1 (reachable_sound h room_id)).1
    · intro room_id room hroom
      exact ((roomSound_of_some hroom).1 (reachable_sound h room_id)).2
    · intro k room_id payload seen hchange u hu _ j hseen hjk
      rw [← Bool.not_eq_true, ← Members.mem_currentIds] at hu ⊢
      rw [(hsame k room_id payload seen hchange j hseen hjk).2]
      exact hu

/-! ## Alice, who owns a room with Bob and Carol -/

/-- The run goes on with a call. -/
def World.next (w : World) (now : Time) (event : Event) : World :=
  ⟨(event.perform w.db now).toOption.getD w.db, w.log ++ [⟨w.db, event, now⟩]⟩

theorem reachable_next (h : machine.Reachable w) {event : Event} (hread : event.Read w)
    (hok : (event.perform w.db now).toOption.isSome = true) :
    machine.Reachable (w.next now event) := by
  have hstep : machine.step w (now, event) = some (w.next now event) :=
    step_eq_some.2 ⟨hread, _, Raise.ok_getD hok, rfl⟩
  exact h.next trivial hstep

def alice : AuthUserSummary := ⟨"alice", "moa", by decide⟩

def bob : AuthUserSummary := ⟨"bob", "moa", by decide⟩

def threeUsers : Table String User :=
  ((Table.empty.set "alice" ⟨"moa", .active⟩).set "bob" ⟨"moa", .active⟩).set "carol"
    ⟨"moa", .active⟩

/-- The room is made at time 1. -/
def madeRoom : World :=
  World.next ⟨⟨threeUsers, .empty, .empty⟩, []⟩ 1
    (.request alice (.create_room "room" ⟨"team", .group, ["bob", "carol"], "ko"⟩))

theorem reachable_madeRoom : machine.Reachable madeRoom :=
  reachable_next (.start ⟨threeUsers, rfl⟩) trivial (by decide)

/-- Alice has read the version of time 1, and asks for all three. -/
def keepAll : Event :=
  .request alice (.update_room_participants "room" ⟨["alice", "bob", "carol"], 1⟩ 1)

/-- Bob leaves, and then Alice's request comes. -/
def broughtBack : World :=
  World.next (World.next madeRoom 2 (.request bob (.leave_room "room"))) 3 keepAll

theorem bob_is_brought_back : machine.Reachable broughtBack ∧
    broughtBack.Changes 2 "room" ⟨["alice", "bob", "carol"], 1⟩ 1 ∧ ¬ Laws broughtBack := by
  have hleft : machine.Reachable (madeRoom.next 2 (.request bob (.leave_room "room"))) :=
    reachable_next reachable_madeRoom trivial (by decide +kernel)
  have hchanges : broughtBack.Changes 2 "room" ⟨["alice", "bob", "carol"], 1⟩ 1 :=
    ⟨_, alice, rfl, rfl⟩
  refine ⟨reachable_next hleft (by decide +kernel) (by decide +kernel), hchanges, fun hlaws => ?_⟩
  have hstill := hlaws.nobody_comes_back 2 _ _ _ hchanges "bob" (by decide +kernel)
    (by decide +kernel) 1 le_rfl (by omega)
  revert hstill
  decide +kernel

/-- Bob stays, and Alice's request changes nothing. -/
theorem three_members_stay : machine.Reachable (madeRoom.next 2 keepAll) ∧
    Laws (madeRoom.next 2 keepAll) := by
  have hreach : machine.Reachable (madeRoom.next 2 keepAll) :=
    reachable_next reachable_madeRoom (by decide +kernel) (by decide +kernel)
  refine ⟨hreach, (rooms_are_lawful_iff _ hreach).2 ?_⟩
  rintro k room_id payload seen hchange j entry hseen hjk hj
  obtain ⟨entry', actor, hk, hevent⟩ := hchange
  match k, hk with
  | 0, _ => omega
  | 1, hk =>
    cases hk
    cases hevent
    omega

end moaworks.messenger_rooms
