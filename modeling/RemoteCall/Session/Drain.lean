/-
# Draining a session

A server that stops serving lets the requests under way finish.  A drain announces that to the
other end with SUSPEND, waits until no request is outstanding or the window has passed, and then
sends DISCONNECT.  It looks at the number of requests from time to time, or, with no pause between
two looks, sees every change of it at once.  With no window, and to a peer that does not know
SUSPEND, it sends DISCONNECT at once.  A session that is still open some time after that is ended.

A drain that has been announced needs the time at which the window ends.  If the clock cannot tell
that time, the task breaks off there, and leaves the session as it is.
-/
import RemoteCall.Session.Basic

namespace RemoteCall

/-- How sessions are drained. -/
structure DrainPolicy where
  /-- How long requests may take to finish. -/
  window : Duration
  /-- The pause between two looks at the requests under way, or none. -/
  pause : Duration
deriving DecidableEq, Repr, Inhabited

namespace DrainPolicy

/-- Whether a drain of a session is announced. -/
def announces (p : DrainPolicy) (s : Session) : Bool :=
  p.window.nanos != 0 && s.version.any (·.supports .suspend)

/-- How long a session may stay open after its DISCONNECT has been sent. -/
def linger (p : DrainPolicy) : Duration := ⟨max p.pause.nanos (Duration.ofSeconds 1).nanos⟩

end DrainPolicy

/-- What a drain does next. -/
inductive DrainStage
  /-- Announces itself. -/
  | starting
  /-- Moves the session, SUSPEND having been sent. -/
  | announced
  /-- Looks at the number of requests under way. -/
  | looking (deadline : Duration)
  /-- Waits for the next look, or for the end of the session. -/
  | resting (deadline wake : Duration)
  /-- Waits for the last request, or for the end of the session, and looks all the time. -/
  | watching (deadline : Duration)
  /-- Sends DISCONNECT, either because no request was under way or because the time was up. -/
  | parting (quiet : Bool)
  /-- Waits for the end of the session. -/
  | lingering (limit : Duration)
  /-- Nothing. -/
  | ended
deriving DecidableEq, Repr, Inhabited

namespace DrainStage

/-- The time at which a timer goes off that is set for a while.  A timer is told how long to wait
and never needs the clock to tell that time. -/
def later (now wait : Duration) : Duration := ⟨now.nanos + wait.nanos⟩

/-- One step of a drain of a session; the clock tells no time from `horizon` on. -/
def step (p : DrainPolicy) (horizon now : Duration) (stage : DrainStage) (s : Session) :
    DrainStage × Session :=
  match stage with
  | starting =>
    if p.announces s then
      match s.sendControl .suspend with
      | .ok t => (announced, t)
      | .error _ => (parting false, s)
    else (parting false, s)
  | announced =>
    let next := (now.later? p.window horizon).elim ended looking
    match s.moveTo .suspending with
    | .ok (_, t) => (next, t)
    | .error _ => (next, s)
  | looking deadline =>
    if s.outstanding = 0 then (parting true, s)
    else if deadline.nanos ≤ now.nanos then (parting false, s)
    else if p.pause.nanos = 0 then (watching deadline, s)
    else (resting deadline (later now p.pause), s)
  | resting deadline wake =>
    if s.state.isTerminal then (ended, s)
    else if wake.nanos ≤ now.nanos then (looking deadline, s)
    else (stage, s)
  | watching deadline =>
    if s.state.isTerminal then (ended, s)
    else if s.outstanding = 0 || deadline.nanos ≤ now.nanos then (looking deadline, s)
    else (stage, s)
  | parting _ =>
    match s.sendControl .disconnect with
    | .ok t => (lingering (later now p.linger), t)
    | .error _ => (ended, s.closed)
  | lingering limit =>
    if s.state.isTerminal then (ended, s)
    else if limit.nanos ≤ now.nanos then (ended, s.closed)
    else (stage, s)
  | ended => (ended, s)

/-- The time at which a drain goes on if the session stays as it is. -/
def wake? : DrainStage → Option Duration
  | resting _ wake => some wake
  | watching deadline => some deadline
  | lingering limit => some limit
  | _ => none

/-- Whether a drain waits. -/
def isBlocked (now : Duration) (stage : DrainStage) (s : Session) : Bool :=
  match stage with
  | resting _ wake => !s.state.isTerminal && now.nanos < wake.nanos
  | watching deadline =>
    !s.state.isTerminal && s.outstanding != 0 && now.nanos < deadline.nanos
  | lingering limit => !s.state.isTerminal && now.nanos < limit.nanos
  | ended => true
  | _ => false

/-- A drain and its session once the drain waits or has ended. -/
def settle (p : DrainPolicy) (horizon now : Duration) :
    Nat → DrainStage → Session → DrainStage × Session
  | 0, stage, s => (stage, s)
  | fuel + 1, stage, s =>
    if stage.isBlocked now s then (stage, s)
    else
      let (stage, s) := stage.step p horizon now s
      settle p horizon now fuel stage s

/-- The number of steps that a drain takes at most before it waits or has ended. -/
def patience : Nat := 8

end DrainStage

end RemoteCall
