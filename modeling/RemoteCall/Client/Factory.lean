/-
# Finding a server

A client keeps at most one session, to one of its candidate servers.  A pass over the candidates
starts behind the one that worked last, leaves out those that a probe reports as down, and ends at
the first one that takes a session.  While no session can be had, passes are repeated after a
pause.
-/
import RemoteCall.Client.Connect
import RemoteCall.Client.Correlator
import RemoteCall.Settings.Client

namespace RemoteCall

/-- What is known about the connection to a candidate. -/
inductive ConnectionStatus
  /-- There is none. -/
  | disconnected
  /-- It is being made. -/
  | connecting
  /-- It carries the active session. -/
  | connected
  /-- The last attempt failed, or the candidate was left out. -/
  | failed
deriving DecidableEq, Repr, Inhabited

/-- The name of a status. -/
def ConnectionStatus.name : ConnectionStatus → String
  | disconnected => "Disconnected"
  | connecting => "Connecting"
  | connected => "Connected"
  | failed => "Failed"

/-- A client. -/
structure Factory where
  /-- The settings. -/
  settings : ClientSettings
  /-- The versions that it offers. -/
  range : VersionRange
  /-- The candidates. -/
  candidates : List String
  /-- The calls and the sessions. -/
  calls : Calls
  /-- The status of each candidate. -/
  statuses : List ConnectionStatus
  /-- The candidate and the name of the active session. -/
  active : Option (Nat × String) := none
  /-- The candidate that worked last. -/
  lastIndex : Option Nat := none
  /-- What the last attempt failed with. -/
  lastError : Option String := none
  /-- Whether the client is to look for sessions. -/
  running : Bool := false

namespace Factory

/-- The client of some settings and declarations. -/
def create (settings : ClientSettings) (registry : Registry) : Except Failure Factory := do
  settings.validate
  let range ← settings.range
  let candidates := settings.candidates
  pure
    { settings, range, candidates
      calls :=
        { correlator :=
            { registry
              callTimeout := .ofMillis settings.callTimeout.toNat
              options := settings.decodeOptions } }
      statuses := candidates.map fun _ => .disconnected }

/-- Notes the status of a candidate. -/
def setStatus (f : Factory) (i : Nat) (status : ConnectionStatus) : Factory :=
  { f with statuses := f.statuses.set i status }

/-- The active session. -/
def session? (f : Factory) : Option Session :=
  f.active.bind fun (_, id) => f.calls.session? id

/-- Whether calls can be made. -/
def isConnected (f : Factory) : Bool := f.session?.any Session.isActive

/-- The candidate of the active session. -/
def activeCandidate? (f : Factory) : Option String :=
  f.active.bind fun (i, _) => f.candidates[i]?

/-- The candidates and their statuses. -/
def status (f : Factory) : List (String × ConnectionStatus) := f.candidates.zip f.statuses

/-! ## Passes over the candidates -/

/-- The number of candidates. -/
def count (f : Factory) : Nat := f.candidates.length

/-- The candidate that a pass starts with. -/
def first (f : Factory) : Nat :=
  match f.lastIndex with
  | none => 0
  | some i => (i + 1) % f.count

/-- The candidate that a pass comes to after some others. -/
def candidateAt (f : Factory) (first offset : Nat) : Nat := (first + offset) % f.count

/-- Notes that an attempt failed. -/
def noteFailure (f : Factory) (i : Nat) (e : Failure) : Factory :=
  { f with lastError := some (f.candidates.getD i "" ++ ": " ++ e.message) }.setStatus i .failed

/-- Makes a session the active one. -/
def place (f : Factory) (i : Nat) (id : String) : Factory :=
  { f with active := some (i, id), lastIndex := some i, lastError := none }

/-- Adds a session. -/
def addSession (f : Factory) (s : Session) : Factory :=
  { f with calls := { f.calls with sessions := f.calls.sessions.add s } }

/-- Goes on with a pass at some offsets, given the probe and the outcome of an attempt at each
candidate.  The session that the pass ends with is active. -/
def passOver (probe : String → Bool) (attempt : Nat → Except Failure Session) (first : Nat) :
    List Nat → Factory → Option Session × Factory
  | [], f => (none, f)
  | offset :: rest, f =>
    let i := f.candidateAt first offset
    if !probe (f.candidates.getD i "") then
      passOver probe attempt first rest (f.setStatus i .failed)
    else
      let f := f.setStatus i .connecting
      match attempt i with
      | .error e => passOver probe attempt first rest (f.noteFailure i e)
      | .ok s => (some s, ((f.addSession s).place i s.id).setStatus i .connected)

/-- One pass over all candidates. -/
def pass (probe : String → Bool) (attempt : Nat → Except Failure Session) (f : Factory) :
    Option Session × Factory :=
  passOver probe attempt f.first (List.range f.count) f

/-! ## The active session -/

/-- Frees the place of the active session if it is a given one, and gives its candidate. -/
def release (f : Factory) (id : String) : Option Nat × Factory :=
  match f.active with
  | some (i, held) => if held = id then (some i, { f with active := none }) else (none, f)
  | none => (none, f)

/-- Gives up the calls of a session. -/
def failCalls (f : Factory) (id reason : String) : Factory :=
  { f with calls := (f.calls.failSession id reason).2 }

/-- Notes that a candidate has no connection any more. -/
def noteGone (f : Factory) (i : Option Nat) : Factory :=
  match i with
  | none => f
  | some i => f.setStatus i .disconnected

/-- What a start fails with when its time is up. -/
def startFailure (f : Factory) : Failure :=
  .noViableAddress (f.lastError.getD "no address accepted a connection")

/-! ## Starting and stopping, with nothing else under way -/

/-- The longest pause between two passes. -/
def longestPause (f : Factory) : Duration :=
  let base := f.settings.reconnectInterval.toNat
  .ofMillis (base + base / 10)

/-- Starts a client and waits until it has a session or the time of the start is up, given the
probe and the outcome of an attempt at each candidate.  A client that has been started before makes
a pass in that time only if its pause is over in time. -/
def startAndWait (probe : String → Bool) (attempt : Nat → Except Failure Session) (f : Factory) :
    Except Failure Unit × Factory :=
  let window := Duration.ofMillis f.settings.startTimeout.toNat
  let due := !f.running || f.longestPause.nanos ≤ window.nanos
  let f := { f with running := true }
  let f := if f.isConnected || !due then f else (f.pass probe attempt).2
  (if f.isConnected then .ok () else .error f.startFailure, f)

/-- Stops a client. -/
def stop (f : Factory) : Factory :=
  let stopped := { f with running := false, active := none }
  match f.active with
  | none => stopped
  | some (i, id) =>
    ({ stopped with calls := stopped.calls.onSession id Session.closed }.failCalls id
      "connection factory stopped").setStatus i .disconnected

/-- A probe can only be set while nobody else uses the client. -/
def lateProbe : Failure := .config "health probe must be set before the factory is shared"

/-! ## Calls -/

/-- Makes a call on the active session. -/
def invoke (f : Factory) (now : Duration) (call : Call) : Factory :=
  match f.active with
  | some (_, id) => { f with calls := f.calls.send now id call }
  | none =>
    let ticket := f.calls.made
    { f with calls := { f.calls with made := ticket + 1 }.report ticket (.error .notConnected) }

/-- The number of calls that wait for an answer. -/
def pendingCalls (f : Factory) : Nat := f.calls.correlator.pending.length

/-- The outcome of a call, if it is known. -/
def outcome? (f : Factory) (ticket : Nat) : Option Outcome :=
  (f.calls.reported.find? fun r => r.1 == ticket).map Prod.snd

end Factory

end RemoteCall
