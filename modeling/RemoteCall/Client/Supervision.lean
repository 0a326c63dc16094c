/-
# Starting and stopping a client

Starts and stops may be called by many tasks at once.  A start spawns a supervisor unless the
client runs already; the supervisor makes passes over the candidates and watches the session that
it finds.  A stop takes the supervisor and the active session, closes the session, waits for the
supervisor and then closes a session that came late.  Every step that a task takes on its own is
one move here.
-/
import RemoteCall.Client.Factory

namespace RemoteCall

/-- What a supervisor does next. -/
inductive SupervisorStage
  /-- Looks whether the client is still to look for sessions, and begins a pass. -/
  | checking
  /-- Comes to a candidate. -/
  | considering (first offset : Nat)
  /-- Waits for an attempt to succeed or to fail. -/
  | attempting (first offset : Nat)
  /-- Has a session that is not in its place yet. -/
  | arriving (index : Nat) (session : String)
  /-- Notes the status of a session in its place. -/
  | placed (index : Nat) (session : String)
  /-- Watches a session. -/
  | watching (session : String)
  /-- Frees the place of a session that is lost. -/
  | losing (session : String)
  /-- Gives up the calls of a session that is lost. -/
  | failing (session : String) (index : Option Nat)
  /-- Waits before the next pass. -/
  | pausing
  /-- Nothing. -/
  | done
deriving DecidableEq, Repr, Inhabited

/-- What a start does next. -/
inductive StartStage
  /-- Spawns a supervisor. -/
  | spawning
  /-- Leaves its supervisor, which is at work already, for the next stop to take. -/
  | storing (supervisor : Nat)
  /-- Nothing. -/
  | done
deriving DecidableEq, Repr, Inhabited

/-- What a stop does next.  The flag says whether the session came late. -/
inductive StopStage
  /-- Takes the supervisor and the active session. -/
  | taking
  /-- Tells a session that it is over. -/
  | closing (index : Nat) (session : String) (late : Bool) (supervisor : Option Nat)
  /-- Waits for the end of a session. -/
  | lingering (index : Nat) (session : String) (late : Bool) (supervisor : Option Nat)
  /-- Gives up the calls of a session. -/
  | failing (index : Nat) (session : String) (late : Bool) (supervisor : Option Nat)
  /-- Waits for the supervisor. -/
  | joining (supervisor : Option Nat)
  /-- Takes a session that came late. -/
  | takingLate
  /-- Nothing. -/
  | done
deriving DecidableEq, Repr, Inhabited

/-- A client with its tasks. -/
structure Supervision where
  /-- The client. -/
  factory : Factory
  /-- The supervisors that have been spawned. -/
  supervisors : List SupervisorStage := []
  /-- The supervisor that the next stop takes. -/
  current : Option Nat := none
  /-- The starts. -/
  starts : List StartStage := []
  /-- The stops. -/
  stops : List StopStage := []
  /-- The sessions on which a DISCONNECT has been put into the queue. -/
  told : List String := []

namespace Supervision

/-- Changes a session. -/
def onSession (x : Supervision) (id : String) (f : Session → Session) : Supervision :=
  { x with factory := { x.factory with calls := x.factory.calls.onSession id f } }

/-- Whether a session is over. -/
def isOver (x : Supervision) (id : String) : Bool :=
  (x.factory.calls.session? id).all fun s => s.state.isTerminal

/-- Tells a session that it is over: with a DISCONNECT if that can be sent, else at once. -/
def tell (x : Supervision) (id : String) : Supervision :=
  match x.factory.calls.session? id with
  | none => x
  | some s =>
    match s.sendControl .disconnect with
    | .ok t => { x.onSession id (fun _ => t) with told := x.told ++ [id] }
    | .error _ => x.onSession id Session.closed

/-- Puts a supervisor into a stage. -/
def setSupervisor (x : Supervision) (k : Nat) (stage : SupervisorStage) : Supervision :=
  { x with supervisors := x.supervisors.set k stage }

/-- Puts a stop into a stage. -/
def setStop (x : Supervision) (k : Nat) (stage : StopStage) : Supervision :=
  { x with stops := x.stops.set k stage }

/-! ## Supervisors -/

/-- A supervisor comes to a candidate. -/
def consider (x : Supervision) (probe : String → Bool) (k first offset : Nat) : Supervision :=
  let f := x.factory
  if f.count ≤ offset || !f.running then x.setSupervisor k .pausing
  else
    let i := f.candidateAt first offset
    if probe (f.candidates.getD i "") then
      { x with factory := f.setStatus i .connecting }.setSupervisor k (.attempting first offset)
    else
      { x with factory := f.setStatus i .failed }.setSupervisor k (.considering first (offset + 1))

/-- The attempt of a supervisor ends. -/
def attempted (x : Supervision) (k first offset : Nat) (outcome : Except Failure Session) :
    Supervision :=
  let i := x.factory.candidateAt first offset
  match outcome with
  | .ok s =>
    { x with factory := x.factory.addSession s }.setSupervisor k (.arriving i s.id)
  | .error e =>
    { x with factory := x.factory.noteFailure i e }.setSupervisor k
      (.considering first (offset + 1))

/-- A supervisor puts its session into its place, unless the client has been stopped. -/
def arrive (x : Supervision) (k i : Nat) (id : String) : Supervision :=
  if x.factory.running then
    { x with factory := x.factory.place i id }.setSupervisor k (.placed i id)
  else
    let x := x.tell id
    { x with factory := x.factory.setStatus i .disconnected }.setSupervisor k .pausing

/-- The next step of a supervisor.  Where it waits for several things, `first` says whether it
goes on with the first of them: the loss of its session, or the end of the pause. -/
def stepSupervisor (x : Supervision) (probe : String → Bool) (k : Nat) (first : Bool) :
    Supervision :=
  match x.supervisors[k]? with
  | some .checking =>
    if x.factory.running then x.setSupervisor k (.considering x.factory.first 0)
    else x.setSupervisor k .done
  | some (.considering start offset) => x.consider probe k start offset
  | some (.arriving i id) => x.arrive k i id
  | some (.placed i id) =>
    { x with factory := x.factory.setStatus i .connected }.setSupervisor k (.watching id)
  | some (.watching id) =>
    if first && x.isOver id then x.setSupervisor k (.losing id)
    else if first || x.factory.running then x
    else x.setSupervisor k .done
  | some (.losing id) =>
    let (i, factory) := x.factory.release id
    { x with factory }.setSupervisor k (.failing id i)
  | some (.failing id i) =>
    let factory := (x.factory.failCalls id "session lost").noteGone i
    { x with factory }.setSupervisor k (if factory.running then .pausing else .done)
  | some .pausing =>
    if first then x.setSupervisor k .checking
    else if x.factory.running then x
    else x.setSupervisor k .done
  | _ => x

/-! ## Starts and stops -/

/-- Calls for a start. -/
def start (x : Supervision) : Supervision :=
  let stage := if x.factory.running then StartStage.done else .spawning
  { x with factory := { x.factory with running := true }, starts := x.starts ++ [stage] }

/-- The next step of a start. -/
def stepStart (x : Supervision) (k : Nat) : Supervision :=
  match x.starts[k]? with
  | some .spawning =>
    { x with
      starts := x.starts.set k (.storing x.supervisors.length)
      supervisors := x.supervisors ++ [.checking] }
  | some (.storing n) => { x with starts := x.starts.set k .done, current := some n }
  | _ => x

/-- Calls for a stop. -/
def stop (x : Supervision) : Supervision :=
  { x with factory := { x.factory with running := false }, stops := x.stops ++ [.taking] }

/-- The stage of a stop after a session has been dealt with. -/
def afterClose (late : Bool) (supervisor : Option Nat) : StopStage :=
  if late then .done else .joining supervisor

/-- Takes the active session out of its place. -/
def takeActive (x : Supervision) : Option (Nat × String) × Supervision :=
  (x.factory.active, { x with factory := { x.factory with active := none } })

/-- The next step of a stop; `timeUp` says whether it has waited long enough for the end of a
session. -/
def stepStop (x : Supervision) (k : Nat) (timeUp : Bool) : Supervision :=
  match x.stops[k]? with
  | some .taking =>
    let supervisor := x.current
    let (taken, x) := { x with current := none }.takeActive
    x.setStop k <|
      match taken with
      | some (i, id) => .closing i id false supervisor
      | none => .joining supervisor
  | some (.closing i id late supervisor) =>
    (x.tell id).setStop k (.lingering i id late supervisor)
  | some (.lingering i id late supervisor) =>
    if x.isOver id then x.setStop k (.failing i id late supervisor)
    else if timeUp then
      (x.onSession id Session.closed).setStop k (.failing i id late supervisor)
    else x
  | some (.failing i id late supervisor) =>
    let factory := (x.factory.failCalls id "connection factory stopped").setStatus i .disconnected
    { x with factory }.setStop k (afterClose late supervisor)
  | some (.joining supervisor) =>
    if supervisor.all (fun n => x.supervisors[n]? == some .done) then x.setStop k .takingLate
    else x
  | some .takingLate =>
    let (taken, x) := x.takeActive
    x.setStop k <|
      match taken with
      | some (i, id) => .closing i id true none
      | none => .done
  | _ => x

/-! ## Moves -/

/-- A step of one task, or something that happens to a session. -/
inductive Move
  /-- A start is called for. -/
  | start
  /-- A start goes on. -/
  | stepStart (index : Nat)
  /-- A stop is called for. -/
  | stop
  /-- A stop goes on. -/
  | stepStop (index : Nat) (timeUp : Bool)
  /-- A supervisor goes on. -/
  | stepSupervisor (index : Nat) (first : Bool)
  /-- The attempt of a supervisor ends. -/
  | attempted (index : Nat) (outcome : Except Failure Session)
  /-- A session is lost. -/
  | lose (session : String)
  /-- The server suspends a session. -/
  | suspend (session : String)

/-- The client after a step; a step that is not due changes nothing. -/
def next (probe : String → Bool) (x : Supervision) : Move → Supervision
  | .start => x.start
  | .stepStart k => x.stepStart k
  | .stop => x.stop
  | .stepStop k timeUp => x.stepStop k timeUp
  | .stepSupervisor k first => x.stepSupervisor probe k first
  | .attempted k outcome =>
    match x.supervisors[k]? with
    | some (.attempting first offset) => x.attempted k first offset outcome
    | _ => x
  | .lose id => x.onSession id Session.closed
  | .suspend id => x.onSession id fun s => (s.perform (.moveTo .suspending)).1

/-- The client after some steps. -/
def run (probe : String → Bool) (x : Supervision) (moves : List Move) : Supervision :=
  moves.foldl (next probe) x

end Supervision

end RemoteCall
