/-
# A session with its tasks and its writer

The writer of a session takes its steps while any number of tasks make calls on the session.
Between two steps of the writer, those tasks may do anything.  What they put into the queue is
written down.
-/
import RemoteCall.Session.Tasks
import RemoteCall.Session.Writer

namespace RemoteCall

/-- The bytes of a frame; a frame that is too long to be written has none. -/
def Frame.wire (f : Frame) : List UInt8 :=
  match f.encode with
  | .ok bytes => bytes
  | .error _ => []

/-- The bytes of some frames, one frame after the other. -/
def Frame.wireAll (frames : List Frame) : List UInt8 := frames.flatMap wire

/-- A session, the tasks that have made a call on it, and its writer. -/
structure WrittenSession where
  /-- The session and the tasks. -/
  shared : SharedSession
  /-- The writer. -/
  writer : Writer := {}
  /-- All frames that have ever been put into the queue, in that order. -/
  queued : List Frame := []
deriving DecidableEq, Repr, Inhabited

namespace WrittenSession

/-- What happens to a session that is written. -/
inductive Move
  /-- A task makes a call. -/
  | make (call : SessionCall)
  /-- A task goes on. -/
  | goOn (index : Nat)
  /-- The writer takes a step at a time.  The outcome counts only if the step writes. -/
  | write (now : Duration) (outcome : WriteOutcome)
deriving DecidableEq, Repr, Inhabited

/-- What a session and its tasks make of something that happens to them, and what they queue. -/
def share (x : WrittenSession) (m : SharedSession.Move) : WrittenSession :=
  let shared := x.shared.next m
  { x with
    shared
    queued := x.queued ++ shared.session.queue.drop x.shared.session.queue.length }

/-- The session, its tasks and its writer after one more thing has happened. -/
def next (x : WrittenSession) : Move → WrittenSession
  | .make call => x.share (.make call)
  | .goOn i => x.share (.goOn i)
  | .write now outcome =>
    let (writer, session) := x.writer.step now x.shared.session outcome
    { x with writer, shared := { x.shared with session } }

/-- The session, its tasks and its writer after some things have happened. -/
def run (x : WrittenSession) (moves : List Move) : WrittenSession := moves.foldl next x

end WrittenSession

end RemoteCall
