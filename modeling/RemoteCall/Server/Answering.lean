/-
# A session of a server and its tasks

On a session of a server, its reader takes what comes, each request is answered by a task of its
own, and the writer writes what is in the queue, while other tasks use the session as well.  Every
step that a task takes on its own is one move here; moves of different tasks may follow each other
in any order.
-/
import RemoteCall.Server.Dispatch
import RemoteCall.Session.Writer

namespace RemoteCall

/-- A session of a server with its reader, its requests and its writer. -/
structure ServedSession where
  /-- The session and its requests. -/
  serving : Serving
  /-- The writer. -/
  writer : Writer := {}
  /-- Whether there is still a reader. -/
  reading : Bool := true
deriving DecidableEq, Repr, Inhabited

namespace ServedSession

/-- A step of one task. -/
inductive Move
  /-- The reader meets something. -/
  | receive (now : Duration) (incoming : Incoming)
  /-- The reader sees that the session is over. -/
  | notice
  /-- A request is given to a worker. -/
  | begin (index : Nat)
  /-- The handler of a request, if it ran, has ended; the answer is made and looks at the state. -/
  | pass (index : Nat) (outcome : HandlerOutcome)
  /-- An answer goes into the queue. -/
  | enqueue (index : Nat)
  /-- A request is taken off the count. -/
  | retire (index : Nat)
  /-- The writer goes on. -/
  | write (now : Duration) (outcome : WriteOutcome)
  /-- The session is used by another task. -/
  | perform (call : SessionCall)

/-- The session after a step. -/
def next (d : Dispatcher) (x : ServedSession) : Move → ServedSession
  | .receive now incoming =>
    if x.reading then
      let (reading, serving) := x.serving.receive now incoming
      { x with serving, reading }
    else x
  | .notice => if x.serving.session.state.isTerminal then { x with reading := false } else x
  | .begin i => { x with serving := x.serving.begin i }
  | .pass i outcome => { x with serving := x.serving.pass d i outcome }
  | .enqueue i => { x with serving := x.serving.enqueue i }
  | .retire i => { x with serving := x.serving.retire i }
  | .write now outcome =>
    let (writer, session) := x.writer.step now x.serving.session outcome
    { x with serving := { x.serving with session }, writer }
  | .perform call =>
    { x with serving := { x.serving with session := (x.serving.session.perform call).1 } }

/-- The session after some steps. -/
def run (d : Dispatcher) (x : ServedSession) (moves : List Move) : ServedSession :=
  moves.foldl (next d) x

end ServedSession

end RemoteCall
