-- Runs of the messenger: the rooms, and the log of the calls that changed them.
import MoaWorks.Lib.Machine
import MoaWorks.MessengerRooms

namespace moaworks.messenger_rooms

/-! ## Calls -/

/-- The calls on rooms. A change of the participants is based on what the caller read after
`seen` calls. -/
inductive Call
  | create_room (room_id : String) (payload : MessengerRoomCreateRequest)
  | update_room_participants (room_id : String) (payload : MessengerRoomParticipantsRequest)
    (seen : Nat)
  | transfer_room_owner (room_id : String) (payload : MessengerRoomOwnerTransferRequest)
  | leave_room (room_id : String)
  | delete_room (room_id : String) (allow_admin : Bool)

inductive Event
  | request (actor : AuthUserSummary) (call : Call)
  | directory (users : Table String User)

def Call.room_id : Call → String
  | create_room room_id _ => room_id
  | update_room_participants room_id _ _ => room_id
  | transfer_room_owner room_id _ => room_id
  | leave_room room_id => room_id
  | delete_room room_id _ => room_id

def Call.perform (db : Db) (actor : AuthUserSummary) (now : Time) : Call → Except Error Db
  | create_room room_id payload => messenger_rooms.create_room db actor room_id payload now
  | update_room_participants room_id payload _ =>
    messenger_rooms.update_room_participants db actor room_id payload now
  | transfer_room_owner room_id payload =>
    messenger_rooms.transfer_room_owner db actor room_id payload now
  | leave_room room_id => messenger_rooms.leave_room db actor room_id now
  | delete_room room_id allow_admin =>
    messenger_rooms.delete_room db actor room_id allow_admin now

def Event.perform (db : Db) (now : Time) : Event → Except Error Db
  | request actor call => call.perform db actor now
  | directory users => .ok { db with users := users }

/-! ## The machine -/

/-- A call that has committed, with the tables that it met. -/
structure Entry where
  db : Db
  event : Event
  now : Time

structure World where
  db : Db
  log : List Entry

/-- The tables after `k` calls. -/
def World.after (w : World) (k : Nat) : Db := ((w.log[k]?).map Entry.db).getD w.db

/-- The caller of `update_room_participants` has read the version that he names. -/
def Event.Read (w : World) : Event → Prop
  | request _ (.update_room_participants room_id payload seen) => seen ≤ w.log.length ∧
    ((w.after seen).rooms.rows room_id).any
      (fun room => decide (room.updated_at = payload.expectedUpdatedAt)) = true
  | _ => True

instance (w : World) (event : Event) : Decidable (event.Read w) := by
  unfold Event.Read
  split
  · exact inferInstance
  · exact inferInstance

/-- Each call holds the lock on the row of its room, and one that raises changes nothing. The
clock is read before the lock is waited for, so the times come in any order. -/
def machine : Machine World (Time × Event) where
  Start := fun w => ∃ users, w = ⟨⟨users, .empty, .empty⟩, []⟩
  step := fun w step =>
    if step.2.Read w then
      (step.2.perform w.db step.1).toOption.map
        (fun db' => ⟨db', w.log ++ [⟨w.db, step.2, step.1⟩]⟩)
    else none

theorem step_eq_some {w w' : World} {step : Time × Event} :
    machine.step w step = some w' ↔ step.2.Read w ∧
      ∃ db', step.2.perform w.db step.1 = .ok db' ∧
        w' = ⟨db', w.log ++ [⟨w.db, step.2, step.1⟩]⟩ := by
  unfold machine
  simp only [Option.ite_none_right_eq_some, Option.map_eq_some_iff]
  constructor
  · rintro ⟨hread, db', hok, rfl⟩
    exact ⟨hread, db', Raise.ok_of_toOption hok, rfl⟩
  · rintro ⟨hread, db', hok, rfl⟩
    exact ⟨hread, db', by rw [hok]; rfl, rfl⟩

theorem after_of_le {w : World} {db' : Db} {entry : Entry} (hentry : entry.db = w.db) {k : Nat}
    (hk : k ≤ w.log.length) : World.after ⟨db', w.log ++ [entry]⟩ k = w.after k := by
  unfold World.after
  rcases Nat.lt_or_ge k w.log.length with hlt | hge
  · simp [List.getElem?_append_left hlt, hlt]
  · obtain rfl : k = w.log.length := Nat.le_antisymm hk hge
    simp [hentry]

theorem after_length (w : World) : w.after w.log.length = w.db := by
  simp [World.after]

/-- The log tells the run: each of its calls leads from the tables before it to those after it. -/
theorem recorded {w : World} (h : machine.Reachable w) {k : Nat} {entry : Entry}
    (hk : w.log[k]? = some entry) : entry.db = w.after k ∧
      entry.event.perform (w.after k) entry.now = .ok (w.after (k + 1)) := by
  induction h generalizing k entry with
  | start hstart =>
    obtain ⟨users, rfl⟩ := hstart
    cases hk
  | @next w w' step _ _ hstep ih =>
    obtain ⟨_, db', hok, rfl⟩ := step_eq_some.1 hstep
    rcases Nat.lt_or_ge k w.log.length with hlt | hge
    · rw [List.getElem?_append_left hlt] at hk
      rw [after_of_le rfl hlt.le, after_of_le rfl hlt]
      exact ih hk
    · have hlen := (List.getElem?_eq_some_iff.1 hk).1
      rw [List.length_append, List.length_singleton] at hlen
      obtain rfl : k = w.log.length := by omega
      rw [List.getElem?_append_right le_rfl, Nat.sub_self] at hk
      cases hk
      have hlast := after_length ⟨db', w.log ++ [⟨w.db, step.2, step.1⟩]⟩
      rw [List.length_append, List.length_singleton] at hlast
      rw [after_of_le rfl le_rfl, after_length, hlast]
      exact ⟨rfl, hok⟩

end moaworks.messenger_rooms
