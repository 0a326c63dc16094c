/-
# The sessions of one end

All tasks of one end refer to its sessions by name.
-/
import RemoteCall.Named
import RemoteCall.Session.Basic

namespace RemoteCall

/-- The sessions of one end, each under its own name. -/
abbrev Sessions : Type := Named Session

namespace Sessions

/-- Changes the session of a name. -/
def modify (l : Sessions) (id : String) (f : Session → Session) : Sessions :=
  l.map fun (n, s) => if n = id then (n, f s) else (n, s)

/-- Changes the session of a name and gives what the change reports; nothing if there is no such
session. -/
def update {α : Type} (l : Sessions) (id : String) (f : Session → α × Session) :
    Option (α × Sessions) :=
  (Named.get? l id).map fun s =>
    let (a, t) := f s
    (a, modify l id fun _ => t)

/-- Adds a session under its own name. -/
def add (l : Sessions) (s : Session) : Sessions := Named.put l s.id s

theorem names_modify (l : Sessions) (id : String) (f : Session → Session) :
    Named.names (modify l id f) = Named.names l := by
  simp only [Named.names, modify, List.map_map]
  congr 1
  funext ⟨n, s⟩
  by_cases h : n = id <;> simp [h]

end Sessions

/-- The counters of a session at one moment. -/
structure SessionStats where
  /-- The state. -/
  state : SessionState
  /-- The agreed version. -/
  version : Option ProtocolVersion
  /-- What has been written. -/
  sent : Traffic
  /-- What has been read. -/
  received : Traffic
  /-- The number of requests that have not been answered. -/
  outstanding : Nat
deriving DecidableEq, Repr, Inhabited

/-- The counters of a session. -/
def Session.stats (s : Session) : SessionStats :=
  { state := s.state, version := s.version, sent := s.sent, received := s.received
    outstanding := s.outstanding }

end RemoteCall
