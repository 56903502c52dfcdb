-- The reminders of the schedules: what is due, how the runs of the scheduler claim and deliver it,
-- and what becomes of a run that is cut off.
import Mathlib.Data.String.Basic
import MoaWorks.Clock
import MoaWorks.Lib.Machine
import MoaWorks.Lib.Table

namespace moaworks.schedule_notification

/-! ## Windows -/

def microseconds (n : Int) : Int := n * 1000000

def notification_grace_window (interval_seconds : Int) : Int :=
  microseconds (min (max (interval_seconds * 3) 60) 300)

def processing_lease_window (interval_seconds : Int) : Int :=
  microseconds (max (interval_seconds * 10) 300)

def notification_due_in_window (due_at now grace : Int) : Bool :=
  decide (now - grace < due_at) && decide (due_at ≤ now)

inductive DeliveryStatus
  | processing | sent | failed
  deriving DecidableEq, Repr

structure Delivery where
  company_id : String
  status : DeliveryStatus
  delivered_at : Option Time
  updated_at : Time
  deriving DecidableEq, Repr

/-- The WHERE clause of the upsert. -/
def delivery_claim_retryable (delivery : Delivery) (now lease : Int) : Bool :=
  decide (delivery.status = .failed) ||
  (decide (delivery.status = .processing) && decide ((delivery.updated_at : Int) ≤ now - lease))

/-! ## What is due -/

structure User where
  company_id : String
  active : Bool
  deriving DecidableEq, Repr

/-- A row of `user_schedule_events` with its attendees. A repetition is given by the starts that
the calendar has for it, in their order. -/
structure Schedule where
  company_id : String
  owner_user_id : String
  active : Bool
  repetition : Option (List Time)
  starts_at : Time
  alert_minutes : List Nat
  attendees : List String
  deriving DecidableEq, Repr

def Schedule.series (s : Schedule) : List Time := s.repetition.getD [s.starts_at]

structure Db where
  users : Table String User
  schedules : Table String Schedule

/-- The starts in a range, up to the first one behind it. -/
def schedule_occurrences (schedule : Schedule) (range_start range_end : Int) : List Time :=
  (schedule.series.takeWhile (fun (t : Time) => decide ((t : Int) < range_end))).filter
    (fun (t : Time) => decide (range_start ≤ (t : Int)))

def activeIn (db : Db) (company_id user_id : String) : Bool :=
  (db.users.rows user_id).any (fun u => u.active && decide (u.company_id = company_id))

/-- The owner first, and each recipient once. -/
def active_recipient_ids (db : Db) (schedule : Schedule) : List String :=
  (schedule.owner_user_id :: schedule.attendees.filter (fun id =>
    decide (id ≠ schedule.owner_user_id) && activeIn db schedule.company_id id)).eraseDups

/-- The unique key of a delivery. -/
structure Reminder where
  schedule_id : String
  occurrence_at : Time
  alert_minutes : Nat
  recipient_user_id : String
  deriving DecidableEq, Repr

def Reminder.due_at (r : Reminder) : Int := r.occurrence_at - microseconds (60 * r.alert_minutes)

def selected (db : Db) (range_start : Int) : List (String × Schedule) :=
  (db.schedules.orderedBy Schedule.starts_at).filter (fun (_, s) =>
    activeIn db s.company_id s.owner_user_id && s.active && decide (s.alert_minutes ≠ []) &&
    (s.repetition.isSome || decide (range_start ≤ s.starts_at)))

def remindersOf (db : Db) (grace : Int) (current : Time) (id : String) (schedule : Schedule) :
    List Reminder :=
  let range_end := (current : Int) +
    microseconds (60 * (schedule.alert_minutes.foldl max (schedule.alert_minutes.headD 0) + 1))
  (schedule_occurrences schedule (current - grace) range_end).flatMap (fun (occurrence : Time) =>
    schedule.alert_minutes.flatMap (fun (alert_minutes : Nat) =>
      if notification_due_in_window ((occurrence : Int) - microseconds (60 * alert_minutes)) current grace
      then (active_recipient_ids db schedule).map (fun recipient =>
        ⟨id, occurrence, alert_minutes, recipient⟩)
      else []))

/-- The reminders that a run goes through, in its order. -/
def due (db : Db) (grace : Int) (current : Time) : List Reminder :=
  (selected db (current - grace)).flatMap (fun (id, schedule) =>
    remindersOf db grace current id schedule)

/-! ## Runs -/

structure Running where
  now : Time
  limit : Nat
  todo : List Reminder
  sent : Nat
  failures : Nat
  deriving DecidableEq, Repr

inductive Phase
  | idle
  | running (r : Running)
  /-- The claim has committed. -/
  | claimed (r : Running) (reminder : Reminder)
  /-- `emit_event` has returned, or raised. -/
  | finishing (r : Running) (reminder : Reminder) (emitted : Bool)
  deriving DecidableEq, Repr

/-- A run that went through: its reminders, and how many failed. -/
structure Completed where
  now : Time
  failures : Nat
  deriving DecidableEq, Repr

structure World where
  clock : Time
  deliveries : Table Reminder Delivery
  runs : Nat → Phase
  /-- The reminders whose event was emitted, in order. -/
  emitted : List Reminder
  completed : List Completed

inductive Event
  | start (run : Nat) (now : Time) (limit : Nat)
  | next (run : Nat)
  | emit_event (run : Nat) (succeeds : Bool)
  | finish (run : Nat)
  | crash (run : Nat)

def World.setRun (w : World) (run : Nat) (phase : Phase) : World :=
  { w with runs := fun i => if i = run then phase else w.runs i }

/-- The row that the upsert of `_deliver` writes. -/
def claimedRow (company_id : String) (now : Time) (old : Option Delivery) : Delivery :=
  match old with
  | none => ⟨company_id, .processing, none, now⟩
  | some d => { d with status := .processing, updated_at := now }

def finishedRow (emitted : Bool) (now : Time) (d : Delivery) : Delivery :=
  { d with
    status := if emitted then .sent else .failed
    delivered_at := if emitted then some now else none
    updated_at := now }

variable (db : Db) (interval_seconds : Int)

def claimable (w : World) (reminder : Reminder) (now : Time) : Bool :=
  (w.deliveries.rows reminder).all (fun d =>
    delivery_claim_retryable d now (processing_lease_window interval_seconds))

/-- The next turn of the loops of `dispatch_due_notifications`. -/
def nextTurn (w : World) (run : Nat) (r : Running) : World :=
  match r.todo with
  | [] => { w.setRun run .idle with completed := w.completed ++ [⟨r.now, r.failures⟩] }
  | reminder :: todo =>
    if r.limit ≤ r.sent then
      { w.setRun run .idle with completed := w.completed ++ [⟨r.now, r.failures⟩] }
    else if claimable interval_seconds w reminder r.now then
      let company := ((db.schedules.rows reminder.schedule_id).map Schedule.company_id).getD ""
      { w.setRun run (.claimed { r with todo := todo } reminder) with
        deliveries := w.deliveries.set reminder
          (claimedRow company r.now (w.deliveries.rows reminder)) }
    else w.setRun run (.running { r with todo := todo })

/-- What `_finish` leaves: the result in the row, and in the counts of the run. -/
def finished (w : World) (run : Nat) (r : Running) (reminder : Reminder) (emitted : Bool) : World :=
  let r' := if emitted then { r with sent := r.sent + 1 }
    else { r with failures := r.failures + 1 }
  let named := fun k (_ : Delivery) => decide (k = reminder)
  { w.setRun run (.running r') with
    deliveries := w.deliveries.update named (finishedRow emitted r.now) }

def step (w : World) : Event → Option World
  | .start run now limit => match w.runs run with
    | .idle => if w.clock ≤ now then
        let todo := due db (notification_grace_window interval_seconds) now
        some { w.setRun run (.running ⟨now, limit, todo, 0, 0⟩) with clock := now }
      else none
    | _ => none
  | .next run => match w.runs run with
    | .running r => some (nextTurn db interval_seconds w run r)
    | _ => none
  | .emit_event run succeeds => match w.runs run with
    | .claimed r reminder => some { w.setRun run (.finishing r reminder succeeds) with
        emitted := if succeeds then w.emitted ++ [reminder] else w.emitted }
    | _ => none
  | .finish run => match w.runs run with
    | .finishing r reminder emitted => some (finished w run r reminder emitted)
    | _ => none
  | .crash run => some (w.setRun run .idle)

def machine : Machine World Event where
  Start := fun w => w.deliveries = .empty ∧ (∀ i, w.runs i = .idle) ∧ w.emitted = [] ∧
    w.completed = []
  step := step db interval_seconds

end moaworks.schedule_notification
