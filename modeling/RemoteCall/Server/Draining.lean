/-
# A session of a server and its drains

While requests arrive on a session, are answered in any order and are taken off the count, any
number of drains may look at the count and send their frames.  Every step that a task takes on its
own is one move here, so that a drain that has found no request under way may be overtaken by any
other task before it sends DISCONNECT.
-/
import RemoteCall.Server.Answering
import RemoteCall.Session.Drain

namespace RemoteCall

/-- A session of a server with its tasks and its drains. -/
structure DrainedSession where
  /-- The session, its requests and its writer. -/
  served : ServedSession
  /-- The drains. -/
  drains : List DrainStage := []
deriving DecidableEq, Repr, Inhabited

namespace DrainedSession

/-- A step of one task. -/
inductive Move
  /-- The session goes on, or is used by another task. -/
  | serve (move : ServedSession.Move)
  /-- A drain is started. -/
  | startDrain
  /-- A drain goes on. -/
  | drain (index : Nat) (now : Duration)

/-- The session itself. -/
def session (x : DrainedSession) : Session := x.served.serving.session

/-- Changes the session itself. -/
def setSession (x : DrainedSession) (s : Session) : DrainedSession :=
  { x with served := { x.served with serving := { x.served.serving with session := s } } }

/-- The session after a step. -/
def next (d : Dispatcher) (p : DrainPolicy) (x : DrainedSession) : Move → DrainedSession
  | .serve m => { x with served := x.served.next d m }
  | .startDrain => { x with drains := x.drains ++ [.starting] }
  | .drain i now =>
    match x.drains[i]? with
    | none => x
    | some stage =>
      let (stage, s) := stage.step p .clockEnd now x.session
      { x.setSession s with drains := x.drains.set i stage }

/-- The session after some steps. -/
def run (d : Dispatcher) (p : DrainPolicy) (x : DrainedSession) (moves : List Move) :
    DrainedSession :=
  moves.foldl (next d p) x

end DrainedSession

end RemoteCall
