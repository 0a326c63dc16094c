/-
# A session and the tasks that call it

Any number of tasks make calls on one session, while a reader takes frames off its queue.  To move
the session to a state, to end it and to settle its version are steps that no other task can come
between.  To send a frame takes more than one: a task looks at the version if the frame has none
yet, then at the state, and then puts the frame into the queue.
-/
import RemoteCall.Session.Basic

namespace RemoteCall

/-- How far a call has come. -/
inductive CallStage
  /-- It has been made. -/
  | made
  /-- Its frame has got the agreed version. -/
  | stamped (frame : Frame)
  /-- Its frame has been let pass. -/
  | passed (frame : Frame)
  /-- It has returned. -/
  | returned (report : SessionReport)
deriving DecidableEq, Repr, Inhabited

/-- A call on a session, as a task carries it out. -/
structure SessionTask where
  /-- The call. -/
  call : SessionCall
  /-- How far it has come. -/
  stage : CallStage := .made
deriving DecidableEq, Repr, Inhabited

namespace SessionTask

/-- What becomes of a frame when a task looks at the state of the session. -/
def look (s : Session) (f : Frame) : CallStage :=
  match s.letPass with
  | .ok () => .passed f
  | .error e => .returned (.refused e)

/-- One step of a task, and the session behind it. -/
def step (t : SessionTask) (s : Session) : SessionTask × Session :=
  match t.stage with
  | .made =>
    match t.call, s.version with
    | .sendFrame f, _ => ({ t with stage := look s f }, s)
    | .sendControl type, some v => ({ t with stage := .stamped (.control v type) }, s)
    | call, _ =>
      let (s, report) := s.perform call
      ({ t with stage := .returned report }, s)
  | .stamped f => ({ t with stage := look s f }, s)
  | .passed f =>
    let (s, report) := s.settle (s.push f)
    ({ t with stage := .returned report }, s)
  | .returned _ => (t, s)

/-- Some steps of a task, one right after the other. -/
def steps : Nat → SessionTask → Session → SessionTask × Session
  | 0, t, s => (t, s)
  | n + 1, t, s =>
    let (t, s) := t.step s
    steps n t s

end SessionTask

/-- A session and the tasks that have made a call on it, in the order of their calls. -/
structure SharedSession where
  /-- The session. -/
  session : Session
  /-- The tasks. -/
  tasks : List SessionTask := []
deriving DecidableEq, Repr, Inhabited

namespace SharedSession

/-- What happens to a session. -/
inductive Move
  /-- A task makes a call. -/
  | make (call : SessionCall)
  /-- A task goes on. -/
  | goOn (index : Nat)
  /-- The reader of the queue takes the frame in front. -/
  | take
  /-- The queue loses its reader. -/
  | dropQueue
deriving DecidableEq, Repr, Inhabited

/-- The session and its tasks after one more thing has happened. -/
def next (x : SharedSession) : Move → SharedSession
  | .make call => { x with tasks := x.tasks ++ [{ call }] }
  | .goOn i =>
    match x.tasks[i]? with
    | none => x
    | some t =>
      let (t, session) := t.step x.session
      { session, tasks := x.tasks.set i t }
  | .take => { x with session := { x.session with queue := x.session.queue.tail } }
  | .dropQueue => { x with session := x.session.dropQueue }

/-- The session and its tasks after some things have happened. -/
def run (x : SharedSession) (moves : List Move) : SharedSession := moves.foldl next x

/-- The states that a session is in, one after the other. -/
def states (x : SharedSession) : List Move → List SessionState
  | [] => [x.session.state]
  | m :: ms =>
    if (x.next m).session.state = x.session.state then (x.next m).states ms
    else x.session.state :: (x.next m).states ms

end SharedSession

end RemoteCall
