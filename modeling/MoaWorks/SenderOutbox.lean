-- The outbox of the approved senders: the entries, and the runs of the worker that take them in
-- batches and reconcile their companies.
import MoaWorks.Clock
import MoaWorks.Lib.Machine
import MoaWorks.Lib.Table
import Mathlib.Data.String.Basic

namespace moaworks.mail_delivery_worker

/-! ## Entries -/

inductive Status
  | pending | processing | succeeded | failed
  deriving DecidableEq, Repr

/-- A row of `mail_oci_sender_sync_outbox`. -/
structure Entry where
  company_id : String
  status : Status
  attempt_count : Nat
  next_attempt_at : Time
  last_error : Option String
  created_at : Time
  updated_at : Time
  deriving DecidableEq, Repr

/-- `_enqueue_oci_sender_sync` of the directory. -/
def newEntry (company_id : String) (now : Time) : Entry :=
  ⟨company_id, .pending, 0, now, none, now, now⟩

def waiting (e : Entry) : Bool := decide (e.status = .pending) || decide (e.status = .failed)

/-- A row of the query of a run. -/
structure Row where
  id : String
  company_id : String
  attempt_count : Nat
  mail_domain : String
  deriving DecidableEq, Repr

/-- ORDER BY next_attempt_at, created_at. -/
def ordered (entries : Table String Entry) : List (String × Entry) :=
  (entries.orderedBy Entry.created_at).insertionSort
    (fun a b => a.2.next_attempt_at ≤ b.2.next_attempt_at)

/-- The row that the query gives for an entry. It goes past what other transactions hold at that
moment. -/
def queryRow (mail_domains : Table String String) (now : Time) (busy : List String) (id : String)
    (e : Entry) : Option Row :=
  if waiting e = true ∧ e.next_attempt_at ≤ now ∧ id ∉ busy then
    (mail_domains.rows e.company_id).map (fun mail_domain =>
      ⟨id, e.company_id, e.attempt_count, mail_domain⟩)
  else none

def batch (entries : Table String Entry) (mail_domains : Table String String) (now : Time)
    (limit : Nat) (busy : List String) : List Row :=
  ((ordered entries).filterMap (fun (id, e) => queryRow mail_domains now busy id e)).take limit

def processingEntry (now : Time) (e : Entry) : Entry :=
  { e with status := .processing, updated_at := now }

def succeededEntry (now : Time) (e : Entry) : Entry :=
  { e with status := .succeeded, updated_at := now, last_error := none }

/-- The seconds before the next attempt. -/
def retryDelay (attempt : Nat) : Nat := min 3600 (30 * 2 ^ min (attempt - 1) 6)

def failedEntry (now : Time) (attempt : Nat) (error : String) (e : Entry) : Entry :=
  { e with
    status := .failed
    attempt_count := attempt
    next_attempt_at := now + seconds (retryDelay attempt)
    last_error := some (String.ofList (error.toList.take 1000))
    updated_at := now }

/-! ## Runs -/

/-- A call of `reconcile_company` that returned: its company, and what was in the outbox when it
began. -/
structure Reconciled where
  company_id : String
  entries : Table String Entry

inductive Phase
  | idle
  /-- The batch is committed, and these rows of it are left. -/
  | working (now : Time) (rows : List Row)
  | reconciling (now : Time) (row : Row) (rows : List Row) (entries : Table String Entry)
  /-- Before the commit of the result: an error goes to the handler. -/
  | recording (now : Time) (row : Row) (rows : List Row) (error : Option String)

structure World where
  entries : Table String Entry
  mail_domains : Table String String
  runs : Nat → Phase
  reconciled : List Reconciled

inductive Event
  | enqueue (id company_id : String) (now : Time)
  | save_settings (company_id mail_domain : String)
  /-- The first transaction of `run_oci_sender_outbox_once`. -/
  | select (run : Nat) (now : Time) (limit : Nat) (busy : List String)
  | next (run : Nat)
  | reconcile_company (run : Nat) (error : Option String)
  | record (run : Nat)
  /-- The transaction of the result raised, with or without its commit. -/
  | record_raised (run : Nat) (committed : Bool) (error : String)
  /-- The process ends, or an exception leaves the run. -/
  | crash (run : Nat)

def World.setRun (w : World) (run : Nat) (phase : Phase) : World :=
  { w with runs := fun i => if i = run then phase else w.runs i }

def World.write (w : World) (id : String) (f : Entry → Entry) : World :=
  { w with entries := w.entries.update (fun k _ => decide (k = id)) f }

def resultEntry (now : Time) (row : Row) : Option String → Entry → Entry
  | none => succeededEntry now
  | some error => failedEntry now (row.attempt_count + 1) error

def World.take (w : World) (now : Time) (rows : List Row) : World :=
  let taken := fun k (_ : Entry) => decide (k ∈ rows.map Row.id)
  { w with entries := w.entries.update taken (processingEntry now) }

def step (w : World) : Event → Option World
  | .enqueue id company_id now => match w.entries.rows id with
    | none => some { w with entries := w.entries.set id (newEntry company_id now) }
    | some _ => none
  | .save_settings company_id mail_domain =>
    some { w with mail_domains := w.mail_domains.set company_id mail_domain }
  | .select run now limit busy => match w.runs run with
    | .idle =>
      let rows := batch w.entries w.mail_domains now limit busy
      some ((w.take now rows).setRun run (.working now rows))
    | _ => none
  | .next run => match w.runs run with
    | .working _ [] => some (w.setRun run .idle)
    | .working now (row :: rows) => some (w.setRun run (.reconciling now row rows w.entries))
    | _ => none
  | .reconcile_company run error => match w.runs run with
    | .reconciling now row rows entries =>
      some { w.setRun run (.recording now row rows error) with
        reconciled := if error = none then w.reconciled ++ [⟨row.company_id, entries⟩]
          else w.reconciled }
    | _ => none
  | .record run => match w.runs run with
    | .recording now row rows error =>
      some ((w.write row.id (resultEntry now row error)).setRun run (.working now rows))
    | _ => none
  | .record_raised run committed error => match w.runs run with
    | .recording now row rows none =>
      some ((if committed then w.write row.id (succeededEntry now) else w).setRun run
        (.recording now row rows (some error)))
    | _ => none
  | .crash run => some (w.setRun run .idle)

def machine : Machine World Event where
  Start := fun w => w.entries = .empty ∧ (∀ i, w.runs i = .idle) ∧ w.reconciled = []
  step := step

end moaworks.mail_delivery_worker
