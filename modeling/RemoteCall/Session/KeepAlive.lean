/-
# Keeping a session alive

While a session is open, its two ends look at it at regular times.  An end that has been silent
for too long sends a heartbeat; an end that has heard nothing for too long takes the other end for
dead.
-/
import RemoteCall.Session.Basic

namespace RemoteCall

/-- The limits of silence. -/
structure KeepAlive where
  /-- How long this end may be silent. -/
  interval : Duration
  /-- How long the other end may be silent. -/
  timeout : Duration
deriving DecidableEq, Repr, Inhabited

namespace KeepAlive

/-- The time between two looks: a quarter of the smaller limit, at least five milliseconds. -/
def pause (k : KeepAlive) : Duration :=
  ⟨max (min k.interval.nanos k.timeout.nanos / 4) (Duration.ofMillis 5).nanos⟩

/-- The time of a look, the first one being at the start. -/
def lookTime (k : KeepAlive) (start : Duration) (n : Nat) : Duration :=
  ⟨start.nanos + n * k.pause.nanos⟩

/-- Whether a session is watched in a state. -/
def watches : SessionState → Bool
  | .active | .suspending => true
  | _ => false

/-- One look at a session: ends it if the other end has been silent for too long, or sends a
heartbeat if this end has. -/
def look (k : KeepAlive) (now : Duration) (s : Session) : Session :=
  if !watches s.state then s
  else if k.timeout.nanos ≤ (s.readIdle now).nanos then s.closed
  else if k.interval.nanos ≤ (s.writeIdle now).nanos then
    match s.sendControl .heartbeat with
    | .ok t => t
    | .error _ => s
  else s

/-- A session after the looks numbered `n`, `n + 1`, ... up to a time, until something happens to
it: it ends, or a frame waits in its queue.  At most `fuel` looks are made. -/
def watch (k : KeepAlive) (start stop : Duration) : Nat → Nat → Session → Session
  | 0, _, s => s
  | fuel + 1, n, s =>
    if s.state.isTerminal || !s.queue.isEmpty || stop.nanos < (k.lookTime start n).nanos then s
    else k.watch start stop fuel (n + 1) (k.look (k.lookTime start n) s)

/-- A session after all looks from now on for some time, until something happens to it. -/
def watchFor (k : KeepAlive) (start wait : Duration) (s : Session) : Session :=
  k.watch start ⟨start.nanos + wait.nanos⟩ (wait.nanos / k.pause.nanos + 1) 0 s

end KeepAlive

end RemoteCall
