-- The session of the mobile app: the controller that holds it, and the calls that wait for their
-- responses while it changes.
import MoaWorks.Lib.Machine

namespace moaworks.auth_session

/-! ## The controller -/

/-- A token as the server has sent it. `none` is `undefined`, `some ""` stands for no session. -/
abbrev Token := Option String

structure Attempt where
  generation : Nat
  deriving DecidableEq, Repr

structure Context where
  generation : Nat
  token : Token
  deriving DecidableEq, Repr

structure Controller where
  generation : Nat
  activeToken : Token
  deriving DecidableEq, Repr

def createAuthSessionController : Controller := ⟨0, some ""⟩

def beginLogin (c : Controller) : Controller × Attempt :=
  (⟨c.generation + 1, some ""⟩, ⟨c.generation + 1⟩)

def isAttemptCurrent (c : Controller) (attempt : Attempt) : Bool :=
  decide (attempt.generation = c.generation)

def commitLogin (c : Controller) (attempt : Attempt) (token : Token) :
    Option (Controller × Context) :=
  if isAttemptCurrent c attempt then some (⟨c.generation, token⟩, ⟨c.generation, token⟩) else none

/-- `capture(token = activeToken)`. -/
def capture (c : Controller) (token : Token) : Context := ⟨c.generation, token <|> c.activeToken⟩

def isCurrent (c : Controller) (context : Context) : Bool :=
  decide (context.generation = c.generation) && decide (context.token = c.activeToken)

def logout (c : Controller) : Controller := ⟨c.generation + 1, some ""⟩

/-- The controller afterwards, and whether the session has been cleared. -/
def clearAttemptIfCurrent (c : Controller) (attempt : Attempt) : Controller × Bool :=
  if isAttemptCurrent c attempt then (logout c, true) else (c, false)

def clearSessionIfCurrent (c : Controller) (context : Context) : Controller × Bool :=
  if isCurrent c context then (logout c, true) else (c, false)

/-! ## Responses -/

/-- A body, a status that is not ok, or a request that failed without a response. -/
inductive Response (α : Type)
  | ok (body : α)
  | failed (status : Nat)
  | rejected
  deriving DecidableEq, Repr

def SESSION_INVALIDATION_STATUSES : List Nat := [401, 403]

def sessionInvalidated {α : Type} : Response α → Bool
  | .failed status => decide (status ∈ SESSION_INVALIDATION_STATUSES)
  | _ => false

/-- What `requestForSession` does when its response is there. -/
def requestForSession {α : Type} (c : Controller) (context : Context) (response : Response α) :
    Controller × Bool :=
  if sessionInvalidated response then clearSessionIfCurrent c context else (c, false)

def requestForAttempt {α : Type} (c : Controller) (attempt : Attempt) (response : Response α) :
    Controller × Bool :=
  if sessionInvalidated response then clearAttemptIfCurrent c attempt else (c, false)

/-! ## Calls that wait -/

/-- Where a call of `login` is: it waits for `/auth/login`, for `/auth/me`, or to go on with the
user that came. -/
inductive Login
  | requesting (attempt : Attempt)
  | identifying (attempt : Attempt) (token : Token)
  | answered (attempt : Attempt) (token : Token) (user : String)
  | done
  deriving DecidableEq, Repr

def Login.attempt : Login → Option Attempt
  | .requesting attempt | .identifying attempt _ | .answered attempt _ _ => some attempt
  | .done => none

/-- The session that a login has committed, with the context that `commitLogin` has given back. -/
structure Session where
  login : Nat
  context : Context
  deriving DecidableEq, Repr

/-- A protected request: it waits for its response, or has a value for `applyProtectedResponse`. -/
inductive Request
  | waiting (context : Context) (applies : Bool)
  | resolved (context : Context) (value : String)
  | done
  deriving DecidableEq, Repr

def Request.context : Request → Option Context
  | .waiting context _ | .resolved context _ => some context
  | .done => none

/-- A call of `runInitialRequests`: a task is on its way, and so many come after it. -/
inductive Sequence
  | running (context : Context) (left : Nat)
  | done
  deriving DecidableEq, Repr

def Sequence.context : Sequence → Option Context
  | .running context _ => some context
  | .done => none

/-- Who has cleared the session. -/
inductive Cause
  | logout
  | request (context : Context)
  | attempt (login : Nat)
  deriving DecidableEq, Repr

/-- What has happened to the app, with the login begun last and the active session at that time. -/
inductive Entry
  | committed (login : Nat) (context : Context) (user : String) (owner : Option Nat)
  | applied (context : Context) (value : String) (session : Option Session)
  | started (context : Context) (session : Option Session)
  | cleared (cause : Cause) (owner : Option Nat) (session : Option Session)
  deriving DecidableEq, Repr

/-- `owner` is the login begun last, when nothing has cleared the session since; `session` is the
active session. -/
structure World where
  controller : Controller
  owner : Option Nat
  session : Option Session
  logins : Nat → Option Login
  contexts : Nat → Option Context
  requests : Nat → Option Request
  sequences : Nat → Option Sequence
  log : List Entry

inductive Event
  | login (l : Nat)
  | login_response (l : Nat) (response : Response Token)
  | me_response (l : Nat) (response : Response String)
  | resume_login (l : Nat)
  | logout
  | capture (k : Nat) (token : Token)
  | send (r k : Nat) (applies : Bool)
  | respond (r : Nat) (response : Response String)
  | resume_request (r : Nat)
  | initial (s k tasks : Nat)
  | task_done (s : Nat) (ok : Bool)

def put {α : Type} (f : Nat → Option α) (k : Nat) (a : α) : Nat → Option α :=
  fun j => if j = k then some a else f j

/-- The state is that of an app without a session. -/
def World.clear (w : World) (controller : Controller) (cause : Cause) : World :=
  { w with
    controller := controller
    owner := none
    session := none
    log := .cleared cause w.owner w.session :: w.log }

def World.setLogin (w : World) (l : Nat) (login : Login) : World :=
  { w with logins := put w.logins l login }

def World.setRequest (w : World) (r : Nat) (request : Request) : World :=
  { w with requests := put w.requests r request }

def World.setSequence (w : World) (s : Nat) (sequence : Sequence) : World :=
  { w with sequences := put w.sequences s sequence }

/-- `login` goes on after `/auth/login`. -/
def afterLogin (w : World) (l : Nat) (attempt : Attempt) : Response Token → World
  | .ok token => w.setLogin l
    (if isAttemptCurrent w.controller attempt then .identifying attempt token else .done)
  | _ => w.setLogin l .done

/-- `requestForAttempt` goes on after `/auth/me`. -/
def afterMe (w : World) (l : Nat) (attempt : Attempt) (token : Token) (response : Response String) :
    World :=
  match response with
  | .ok user => w.setLogin l (.answered attempt token user)
  | response =>
    match requestForAttempt w.controller attempt response with
    | (controller, true) => (w.setLogin l .done).clear controller (.attempt l)
    | (_, false) => w.setLogin l .done

/-- `login` goes on with the user, and commits. -/
def afterAnswer (w : World) (l : Nat) (attempt : Attempt) (token : Token) (user : String) : World :=
  match commitLogin w.controller attempt token with
  | none => w.setLogin l .done
  | some (controller, context) =>
    { w.setLogin l .done with
      controller := controller
      session := some ⟨l, context⟩
      log := .committed l context user w.owner :: w.log }

def afterRequest (w : World) (r : Nat) (context : Context) (applies : Bool)
    (response : Response String) : World :=
  match response with
  | .ok value => w.setRequest r (if applies then .resolved context value else .done)
  | response =>
    match requestForSession w.controller context response with
    | (controller, true) => (w.setRequest r .done).clear controller (.request context)
    | (_, false) => w.setRequest r .done

/-- `applyProtectedResponse` goes on with the value. -/
def applyProtectedResponse (w : World) (r : Nat) (context : Context) (value : String) : World :=
  if isCurrent w.controller context then
    { w.setRequest r .done with log := .applied context value w.session :: w.log }
  else w.setRequest r .done

/-- `runInitialRequests` goes on when a task has ended. -/
def runInitialRequests (w : World) (s : Nat) (context : Context) (left : Nat) (ok : Bool) : World :=
  if ok && isCurrent w.controller context then
    match left with
    | 0 => w.setSequence s .done
    | left + 1 =>
      { w.setSequence s (.running context left) with log := .started context w.session :: w.log }
  else w.setSequence s .done

def step (w : World) : Event → Option World
  | .login l => match w.logins l with
    | none =>
      let (controller, attempt) := beginLogin w.controller
      some { w.setLogin l (.requesting attempt) with
        controller := controller
        owner := some l
        session := none }
    | some _ => none
  | .login_response l response => match w.logins l with
    | some (.requesting attempt) => some (afterLogin w l attempt response)
    | _ => none
  | .me_response l response => match w.logins l with
    | some (.identifying attempt token) => some (afterMe w l attempt token response)
    | _ => none
  | .resume_login l => match w.logins l with
    | some (.answered attempt token user) => some (afterAnswer w l attempt token user)
    | _ => none
  | .logout => some (w.clear (logout w.controller) .logout)
  | .capture k token => match w.contexts k with
    | none => some { w with contexts := put w.contexts k (auth_session.capture w.controller token) }
    | some _ => none
  | .send r k applies => match w.requests r, w.contexts k with
    | none, some context => some (w.setRequest r (.waiting context applies))
    | _, _ => none
  | .respond r response => match w.requests r with
    | some (.waiting context applies) => some (afterRequest w r context applies response)
    | _ => none
  | .resume_request r => match w.requests r with
    | some (.resolved context value) => some (applyProtectedResponse w r context value)
    | _ => none
  | .initial s k tasks => match w.sequences s, w.contexts k with
    | none, some context => some (w.setSequence s
        (match tasks with
        | 0 => .done
        | tasks + 1 => .running context tasks))
    | _, _ => none
  | .task_done s ok => match w.sequences s with
    | some (.running context left) => some (runInitialRequests w s context left ok)
    | _ => none

def machine : Machine World Event where
  Start := fun w => w = ⟨createAuthSessionController, none, none, fun _ => none, fun _ => none,
    fun _ => none, fun _ => none, []⟩
  step := step

end moaworks.auth_session
