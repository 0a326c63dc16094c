/-
# One end and its background tasks

Sessions, calls, drains and writers of one end together, under a clock that only moves when it is
told to.  Between two commands every task goes on until it has to wait: the drains first, then the
writers, and again as long as one of them can go on.
-/
import RemoteCall.Client.Correlator
import RemoteCall.Server.Tracking
import RemoteCall.Session.Writer

namespace RemoteCall

/-- The writer of a session and the number of bytes that its sink takes. -/
structure Outlet where
  /-- The number of bytes after which the sink fails, if it does. -/
  capacity : Option Nat := none
  /-- The writer. -/
  writer : Writer := {}
deriving DecidableEq, Repr, Inhabited

/-- One end. -/
structure Endpoint where
  /-- The clock. -/
  now : Duration := ⟨0⟩
  /-- The calls and the sessions. -/
  calls : Calls
  /-- The tracked sessions and their drains. -/
  tracker : Tracker
  /-- The writers, by session. -/
  writers : Named Outlet := []

namespace Endpoint

/-- The sessions. -/
def sessions (e : Endpoint) : Sessions := e.calls.sessions

/-- The session of a name. -/
def session? (e : Endpoint) (id : String) : Option Session := e.calls.session? id

/-- Adds a session. -/
def addSession (e : Endpoint) (s : Session) : Endpoint :=
  { e with calls := { e.calls with sessions := e.calls.sessions.add s } }

/-- Changes a session. -/
def onSession (e : Endpoint) (id : String) (f : Session → Session) : Endpoint :=
  { e with calls := e.calls.onSession id f }

/-- Carries out a call on a session, and gives its report. -/
def perform (e : Endpoint) (id : String) (call : SessionCall) : Option SessionReport × Endpoint :=
  match e.session? id with
  | none => (none, e)
  | some s =>
    let (s, report) := s.perform call
    (some report, e.onSession id fun _ => s)

/-! ## The queue and the writer of a session -/

/-- Whether the queue of a session is there to be taken: it has no writer, and is still read. -/
def holdsQueue (e : Endpoint) (id : String) : Bool :=
  (Named.get? e.writers id).isNone && (e.session? id).any Session.queueOpen

/-- The frames that wait in the queue of a session, taken out; nothing if the queue is not there to
be taken. -/
def takeFrames (e : Endpoint) (id : String) : Option (List Frame) × Endpoint :=
  match e.session? id with
  | none => (none, e)
  | some s =>
    if e.holdsQueue id then
      let (frames, s) := s.takeQueue
      (some frames, e.onSession id fun _ => s)
    else (none, e)

/-- Gives the queue of a session to a writer. -/
def startWriter (e : Endpoint) (id : String) (capacity : Option Nat) : Endpoint :=
  if e.holdsQueue id then { e with writers := Named.put e.writers id { capacity } } else e

/-- Stops reading the queue of a session that has no writer. -/
def dropQueue (e : Endpoint) (id : String) : Endpoint :=
  if e.holdsQueue id then e.onSession id Session.dropQueue else e

/-! ## Background tasks -/

/-- Lets a drain go on until it has to wait. -/
def settleDrain (e : Endpoint) (d : Drain) : Drain × Endpoint :=
  match e.session? d.session with
  | none => (d, e)
  | some s =>
    let (stage, s) := d.stage.settle e.tracker.policy .clockEnd e.now DrainStage.patience s
    ({ d with stage }, e.onSession d.session fun _ => s)

/-- Lets some drains go on, one after the other. -/
def settleDrains (e : Endpoint) : List Drain → List Drain × Endpoint
  | [] => ([], e)
  | d :: ds =>
    let (d, e) := e.settleDrain d
    let (ds, e) := e.settleDrains ds
    (d :: ds, e)

/-- Lets the writer of a session go on until it has to wait. -/
def settleWriter (e : Endpoint) (id : String) (o : Outlet) : Outlet × Endpoint :=
  match e.session? id with
  | none => (o, e)
  | some s =>
    let (writer, s) := o.writer.settle o.capacity e.now (Writer.patience s) s
    ({ o with writer }, e.onSession id fun _ => s)

/-- Lets some writers go on, one after the other. -/
def settleWriters (e : Endpoint) : Named Outlet → Named Outlet × Endpoint
  | [] => ([], e)
  | (id, o) :: rest =>
    let (o, e) := e.settleWriter id o
    let (rest, e) := e.settleWriters rest
    ((id, o) :: rest, e)

/-- Lets every task go on once. -/
def round (e : Endpoint) : Endpoint :=
  let (drains, e) := e.settleDrains e.tracker.drains
  let e := { e with tracker := { e.tracker with drains } }
  let (writers, e) := e.settleWriters e.writers
  { e with writers }

/-- Whether every task waits or has ended. -/
def isQuiet (e : Endpoint) : Bool :=
  (e.tracker.drains.all fun d =>
    (e.session? d.session).all fun s => d.stage.isBlocked e.now s) &&
  (e.writers.all fun (id, o) => (e.session? id).all fun s => o.writer.isBlocked s)

/-- Lets every task go on until all of them wait, in at most so many rounds. -/
def settleIn : Nat → Endpoint → Endpoint
  | 0, e => e
  | rounds + 1, e => if e.isQuiet then e else settleIn rounds e.round

/-- Lets every task go on until all of them wait. -/
def settle (e : Endpoint) : Endpoint := settleIn (e.tracker.drains.length + e.writers.length + 2) e

/-! ## The clock -/

/-- The first time after now, and not after a limit, at which a task goes on by itself. -/
def nextWake? (e : Endpoint) (limit : Duration) : Option Duration :=
  ((e.tracker.drains.filterMap fun d => d.stage.wake?.map Duration.nanos).filter fun t =>
    decide (e.now.nanos < t ∧ t ≤ limit.nanos)).min?.map Duration.mk

/-- Moves the clock from one time to the next at which a task goes on, at most `fuel` times, and
then to the limit. -/
def advanceTo (limit : Duration) : Nat → Endpoint → Endpoint
  | 0, e => settle { e with now := limit }
  | fuel + 1, e =>
    match e.nextWake? limit with
    | none => settle { e with now := limit }
    | some t => advanceTo limit fuel (settle { e with now := t })

/-- Moves the clock on. -/
def advance (e : Endpoint) (wait : Duration) : Endpoint :=
  let looks := wait.nanos / max e.tracker.policy.pause.nanos 1 + 3
  e.advanceTo (DrainStage.later e.now wait) (e.tracker.drains.length * looks)

end Endpoint

end RemoteCall
