/-
# The sessions that a server keeps track of

A server tracks the sessions that it has opened and knows whether it is healthy.  Becoming
unhealthy starts a drain of every tracked session that is active at that moment; becoming healthy
again leaves the drains alone.
-/
import RemoteCall.Session.Drain
import RemoteCall.Session.Store

namespace RemoteCall

/-- The drain of a session. -/
structure Drain where
  /-- The session. -/
  session : String
  /-- What the drain does next. -/
  stage : DrainStage := .starting
deriving DecidableEq, Repr, Inhabited

/-- The sessions that a server keeps track of, and their drains. -/
structure Tracker where
  /-- How sessions are drained. -/
  policy : DrainPolicy
  /-- The names of the tracked sessions. -/
  tracked : List String := []
  /-- Whether the server is healthy. -/
  healthy : Bool := true
  /-- The drains that have been started. -/
  drains : List Drain := []
deriving DecidableEq, Repr, Inhabited

namespace Tracker

/-- Tracks a session. -/
def insert (t : Tracker) (id : String) : Tracker :=
  { t with tracked := if id ∈ t.tracked then t.tracked else t.tracked ++ [id] }

/-- Forgets a session, and says whether it was tracked. -/
def remove (t : Tracker) (id : String) : Bool × Tracker :=
  (decide (id ∈ t.tracked), { t with tracked := t.tracked.filter (· != id) })

/-- Whether a session is tracked. -/
def has (t : Tracker) (id : String) : Bool := decide (id ∈ t.tracked)

/-- The number of tracked sessions. -/
def count (t : Tracker) : Nat := t.tracked.length

/-- The tracked sessions, by name. -/
def sessions (t : Tracker) (store : Sessions) : Sessions :=
  t.tracked.filterMap fun id => (Named.get? store id).map fun s => (id, s)

/-! ## Health -/

/-- Sets the health, and says whether the server has become unhealthy by that. -/
def setFlag (t : Tracker) (healthy : Bool) : Bool × Tracker :=
  (t.healthy && !healthy, { t with healthy })

/-- The tracked sessions that are active. -/
def activeNow (t : Tracker) (store : Sessions) : List String :=
  ((t.sessions store).filter fun e => e.2.isActive).map Prod.fst

/-- Starts the drains of some sessions. -/
def startDrains (t : Tracker) (ids : List String) : Tracker :=
  { t with drains := t.drains ++ ids.map fun session => { session } }

/-- Sets the health, starts the drains that this calls for, and gives their number. -/
def setHealthy (t : Tracker) (store : Sessions) (healthy : Bool) : Nat × Tracker :=
  let (becameUnhealthy, t) := t.setFlag healthy
  let ids := if becameUnhealthy then t.activeNow store else []
  (ids.length, t.startDrains ids)

/-! ## Shutdown -/

/-- Tells a session that it is over: with a DISCONNECT if that can be sent, else at once. -/
def disconnect (s : Session) : Session :=
  match s.sendControl .disconnect with
  | .ok t => t
  | .error _ => s.closed

/-- Tells every tracked session that it is over. -/
def disconnectAll (t : Tracker) (store : Sessions) : Sessions :=
  t.tracked.foldl (fun store id => store.modify id disconnect) store

end Tracker

end RemoteCall
