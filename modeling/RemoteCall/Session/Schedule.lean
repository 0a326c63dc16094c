/-
# A drain over time

The clock goes on from one nanosecond to the next.  At each of them the other tasks of the session
use it first, in whatever way, and then the drain goes on until it has to wait.  A timer is never
late: a drain that waits for a time goes on at that time.  What the drain puts into the queue is
written down together with the time.

Times are counted from the start of the drain, and so is the end of the clock.
-/
import RemoteCall.Session.Drain

namespace RemoteCall

/-- A drain that has been started at time zero. -/
structure TimedDrain where
  /-- What it does next. -/
  stage : DrainStage := .starting
  /-- The session. -/
  session : Session
  /-- The frames that it has sent and the times at which it has sent them. -/
  sent : List (Nat × Frame) := []
deriving DecidableEq, Repr, Inhabited

namespace TimedDrain

/-- Lets a drain go on at a time. -/
def goOn (p : DrainPolicy) (horizon : Duration) (now : Nat) (x : TimedDrain) : TimedDrain :=
  let (stage, s) := x.stage.settle p horizon ⟨now⟩ DrainStage.patience x.session
  { stage
    session := s
    sent := x.sent ++ (s.queue.drop x.session.queue.length).map (Prod.mk now) }

/-- What a drain comes upon at a time, given what the other tasks do to its session at each time. -/
def found (p : DrainPolicy) (horizon : Duration) (others : Nat → Session → Session)
    (s : Session) : Nat → TimedDrain
  | 0 => { session := s }
  | t + 1 =>
    let x := (found p horizon others s t).goOn p horizon t
    { x with session := others (t + 1) x.session }

/-- What a drain leaves at a time. -/
def left (p : DrainPolicy) (horizon : Duration) (others : Nat → Session → Session) (s : Session)
    (t : Nat) : TimedDrain :=
  (found p horizon others s t).goOn p horizon t

end TimedDrain

end RemoteCall
