/-
# Servers

A server takes connections, opens a session on each of them after a handshake, and answers the
requests of its sessions.  It can be marked unhealthy, which drains its sessions, and it can be
shut down.  Every step that a connection or a call takes on its own is one move; moves of
different connections and calls may follow each other in any order.
-/
import RemoteCall.Handshake
import RemoteCall.Server.Dispatch
import RemoteCall.Server.Tracking
import RemoteCall.Session.KeepAlive
import RemoteCall.Session.Writer
import RemoteCall.Settings.Server

namespace RemoteCall

/-! ## The parts of a server -/

/-- How far a connection has come. -/
inductive ConnectionStage
  /-- It waits for the opening of the client. -/
  | greeting
  /-- The answer to the opening is being written. -/
  | answering (hello : Hello) (reply : Reply)
  /-- The session is active, but not tracked. -/
  | opened
  /-- The session is tracked; the health of the server has not been looked at. -/
  | tracked
  /-- Frames are read. -/
  | established
  /-- No more frames are read; the session is still tracked. -/
  | leaving
  /-- The connection is over. -/
  | ended
deriving DecidableEq, Repr, Inhabited

/-- A connection. -/
structure Connection where
  /-- The name of its session. -/
  session : String
  /-- How far it has come. -/
  stage : ConnectionStage := .greeting
  /-- The requests under way. -/
  requests : List RequestTask := []
  /-- The writer, once the session is active. -/
  writer : Option Writer := none
deriving DecidableEq, Repr, Inhabited

/-- How far a change of the health has come that makes the server unhealthy. -/
inductive HealthStage
  /-- The flag is set. -/
  | flagged
  /-- These sessions are still to be looked at. -/
  | considering (ids : List String)
deriving DecidableEq, Repr, Inhabited

/-- How far a shutdown has come. -/
inductive ShutdownStage
  /-- The flag is set; if it was this shutdown that found the server still taking connections, it
  waits for the end of that. -/
  | flagged (waits : Bool)
  /-- These sessions are still to be told. -/
  | telling (ids : List String)
  /-- It has returned. -/
  | returned
deriving DecidableEq, Repr, Inhabited

/-- A server. -/
structure Server where
  /-- The settings. -/
  settings : ServerSettings
  /-- The versions that it accepts. -/
  range : VersionRange
  /-- What it answers requests with. -/
  dispatcher : Dispatcher
  /-- The tracked sessions, the health and the drains. -/
  tracker : Tracker
  /-- All sessions. -/
  sessions : Sessions := []
  /-- The connections. -/
  connections : List Connection := []
  /-- Whether it takes connections. -/
  accepting : Bool := true
  /-- Whether it has been asked to stop. -/
  stopping : Bool := false
  /-- The shutdown that waits for the end of taking connections has been called. -/
  acceptorTaken : Bool := false
  /-- The changes of the health under way. -/
  healthTasks : List HealthStage := []
  /-- The shutdowns. -/
  shutdowns : List ShutdownStage := []
  /-- The sessions on which a DISCONNECT has been put into the queue. -/
  told : List String := []

namespace Server

/-- How the sessions of a server of some settings are drained. -/
def drainPolicy (settings : ServerSettings) : DrainPolicy where
  window := .ofMillis settings.drainTimeout.toNat
  pause := settings.drainPause

/-- The server of some settings and declarations. -/
def create (settings : ServerSettings) (registry : Registry) : Except Failure Server := do
  settings.validate
  let range ← settings.range
  pure
    { settings, range
      dispatcher := { operations := { registry }, options := settings.decodeOptions }
      tracker := { policy := drainPolicy settings } }

/-- Registers the handler of an operation. -/
def register (v : Server) (key : OperationKey) (handler : Handler) : Except Failure Server := do
  let operations ← v.dispatcher.operations.register key handler
  pure { v with dispatcher := { v.dispatcher with operations } }

/-- The limits of silence. -/
def keepAlive (v : Server) : KeepAlive :=
  { interval := .ofMillis v.settings.keepAliveInterval.toNat
    timeout := .ofMillis v.settings.keepAliveTimeout.toNat }

/-- Changes a session. -/
def onSession (v : Server) (id : String) (f : Session → Session) : Server :=
  { v with sessions := v.sessions.modify id f }

/-- Changes a connection. -/
def setConnection (v : Server) (i : Nat) (c : Connection) : Server :=
  { v with connections := v.connections.set i c }

/-- Tries to send DISCONNECT on a session.  If that is refused, the session is ended if `force`
says so. -/
def tell (v : Server) (id : String) (force : Bool) : Server :=
  match Named.get? v.sessions id with
  | none => v
  | some s =>
    match s.sendControl .disconnect with
    | .ok t => { v.onSession id (fun _ => t) with told := v.told ++ [id] }
    | .error _ => if force then v.onSession id Session.closed else v

/-! ## Connections -/

/-- Takes a connection. -/
def accept (v : Server) (now : Duration) (id : String) (remote : SocketAddress) : Server :=
  if v.accepting then
    let s : Session := { id, role := .server, remote, state := .negotiating, created := now }
    { v with sessions := v.sessions.add s, connections := v.connections ++ [{ session := id }] }
  else v

/-- Reads the opening of a client. -/
def greet (v : Server) (now : Duration) (i : Nat) (c : Connection) : Incoming → Server
  | .frame f =>
    let v := v.onSession c.session fun s => s.recordRead now f.size
    match Hello.ofFrame f with
    | .error _ => v.setConnection i { c with stage := .ended }
    | .ok hello =>
      v.setConnection i { c with stage := .answering hello (hello.respond v.range c.session) }
  | _ => (v.onSession c.session Session.closed).setConnection i { c with stage := .ended }

/-- A session after a successful handshake. -/
def openSession (s : Session) (hello : Hello) (version : ProtocolVersion) : Session :=
  let s := (s.perform (.setVersion version)).1.setPeer hello.clientId
  (s.perform (.moveTo .active)).1

/-- Goes on after the answer to the opening has been written, or could not be. -/
def answered (v : Server) (i : Nat) (c : Connection) (hello : Hello) (reply : Reply)
    (written : Bool) : Server :=
  if !written then v.setConnection i { c with stage := .ended }
  else
    match reply with
    | .rejected _ =>
      (v.onSession c.session Session.closed).setConnection i { c with stage := .ended }
    | .accepted version _ _ =>
      (v.onSession c.session fun s => openSession s hello version).setConnection i
        { c with stage := .opened, writer := some {} }

/-- Looks at the health of the server once a session is tracked. -/
def checkHealth (v : Server) (i : Nat) (c : Connection) : Server :=
  let v := v.setConnection i { c with stage := .established }
  if v.tracker.healthy then v else v.tell c.session false

/-- Reads a frame on an established connection. -/
def receive (v : Server) (now : Duration) (i : Nat) (c : Connection) (incoming : Incoming) :
    Server :=
  match Named.get? v.sessions c.session with
  | none => v
  | some s =>
    let (goesOn, w) := Serving.receive { session := s, requests := c.requests } now incoming
    (v.onSession c.session fun _ => w.session).setConnection i
      { c with requests := w.requests, stage := if goesOn then .established else .leaving }

/-- Stops reading on an established connection whose session is over. -/
def notice (v : Server) (i : Nat) (c : Connection) : Server :=
  match Named.get? v.sessions c.session with
  | none => v
  | some s => if s.state.isTerminal then v.setConnection i { c with stage := .leaving } else v

/-- Changes the requests of a connection. -/
def onRequests (v : Server) (i : Nat) (f : Serving → Serving) : Server :=
  match v.connections[i]? with
  | none => v
  | some c =>
    match Named.get? v.sessions c.session with
    | none => v
    | some s =>
      let w := f { session := s, requests := c.requests }
      (v.onSession c.session fun _ => w.session).setConnection i { c with requests := w.requests }

/-- The number of workers that have a request. -/
def busyWorkers (v : Server) : Nat :=
  (v.connections.flatMap fun c => c.requests).countP fun r => r.stage == .running

/-! ## Health and shutdown -/

/-- Sets the health. -/
def flagHealth (v : Server) (healthy : Bool) : Server :=
  let (becameUnhealthy, tracker) := v.tracker.setFlag healthy
  { v with tracker, healthTasks := v.healthTasks ++ if becameUnhealthy then [.flagged] else [] }

/-- The next step of a change of the health: the tracked sessions are listed, then looked at one
after the other; those that are active are drained. -/
def stepHealth (v : Server) (k : Nat) : Server :=
  match v.healthTasks[k]? with
  | some .flagged => { v with healthTasks := v.healthTasks.set k (.considering v.tracker.tracked) }
  | some (.considering (id :: ids)) =>
    let v := { v with healthTasks := v.healthTasks.set k (.considering ids) }
    match Named.get? v.sessions id with
    | some s => if s.isActive then { v with tracker := v.tracker.startDrains [id] } else v
    | none => v
  | _ => v

/-- Calls for a shutdown. -/
def flagShutdown (v : Server) : Server :=
  { v with
    stopping := true
    acceptorTaken := true
    shutdowns := v.shutdowns ++ [.flagged (!v.acceptorTaken)] }

/-- The next step of a shutdown: the tracked sessions are listed, then told one after the
other. -/
def stepShutdown (v : Server) (k : Nat) : Server :=
  match v.shutdowns[k]? with
  | some (.flagged waits) =>
    if waits && v.accepting then v
    else { v with shutdowns := v.shutdowns.set k (.telling v.tracker.tracked) }
  | some (.telling []) => { v with shutdowns := v.shutdowns.set k .returned }
  | some (.telling (id :: ids)) =>
    { v with shutdowns := v.shutdowns.set k (.telling ids) }.tell id true
  | _ => v

/-! ## Drains and writers -/

/-- The end of the clock as a drain finds it.  No server runs in the second half of the time that
its clock can tell, so that the end is further off than any window that settings can hold. -/
def horizon (now : Duration) : Duration := ⟨now.nanos + Duration.clockEnd.nanos / 2⟩

/-- The next step of a drain. -/
def stepDrain (v : Server) (now : Duration) (k : Nat) : Server :=
  match v.tracker.drains[k]? with
  | none => v
  | some d =>
    match Named.get? v.sessions d.session with
    | none => v
    | some s =>
      let (stage, t) := d.stage.step v.tracker.policy (horizon now) now s
      let tells := match d.stage, stage with
        | .parting _, .lingering _ => [d.session]
        | _, _ => []
      { v.onSession d.session (fun _ => t) with
        tracker := { v.tracker with drains := v.tracker.drains.set k { d with stage } }
        told := v.told ++ tells }

/-- The next step of the writer of a connection. -/
def stepWriter (v : Server) (now : Duration) (i : Nat) (outcome : WriteOutcome) : Server :=
  match v.connections[i]? with
  | some c =>
    match c.writer, Named.get? v.sessions c.session with
    | some w, some s =>
      let (w, t) := w.step now s outcome
      (v.onSession c.session fun _ => t).setConnection i { c with writer := some w }
    | _, _ => v
  | none => v

/-! ## Moves -/

/-- A step of one connection, one task or one call. -/
inductive Move
  /-- A connection is taken. -/
  | accept (now : Duration) (id : String) (remote : SocketAddress)
  /-- The opening of a client is read. -/
  | greet (now : Duration) (index : Nat) (incoming : Incoming)
  /-- The answer to an opening has been written, or could not be. -/
  | answered (index : Nat) (written : Bool)
  /-- A session is tracked. -/
  | track (index : Nat)
  /-- A connection looks at the health. -/
  | checkHealth (index : Nat)
  /-- A connection reads, which it may still do once when its session is over. -/
  | receive (now : Duration) (index : Nat) (incoming : Incoming)
  /-- A connection sees that its session is over. -/
  | notice (index : Nat)
  /-- A session is no longer tracked. -/
  | leave (index : Nat)
  /-- A request is given to a worker. -/
  | begin (index request : Nat)
  /-- The answer to a request is sent. -/
  | finish (index request : Nat) (outcome : HandlerOutcome)
  /-- A request is taken off the count. -/
  | retire (index request : Nat)
  /-- A connection is looked at by the watch over silence. -/
  | look (now : Duration) (index : Nat)
  /-- A writer goes on. -/
  | write (now : Duration) (index : Nat) (outcome : WriteOutcome)
  /-- A drain goes on. -/
  | drain (now : Duration) (drain : Nat)
  /-- The health is set. -/
  | setHealthy (healthy : Bool)
  /-- A change of the health goes on. -/
  | stepHealth (task : Nat)
  /-- A shutdown is called for. -/
  | shutdown
  /-- The taking of connections ends. -/
  | endAccepting
  /-- A shutdown goes on. -/
  | stepShutdown (task : Nat)

/-- The server after a step; a step that is not due changes nothing. -/
def next (v : Server) : Move → Server
  | .accept now id remote => v.accept now id remote
  | .greet now i incoming =>
    match v.connections[i]? with
    | some c => if c.stage = .greeting then v.greet now i c incoming else v
    | none => v
  | .answered i written =>
    match v.connections[i]? with
    | some c =>
      match c.stage with
      | .answering hello reply => v.answered i c hello reply written
      | _ => v
    | none => v
  | .track i =>
    match v.connections[i]? with
    | some c =>
      if c.stage = .opened then
        { v with tracker := v.tracker.insert c.session }.setConnection i
          { c with stage := .tracked }
      else v
    | none => v
  | .checkHealth i =>
    match v.connections[i]? with
    | some c => if c.stage = .tracked then v.checkHealth i c else v
    | none => v
  | .receive now i incoming =>
    match v.connections[i]? with
    | some c => if c.stage = .established then v.receive now i c incoming else v
    | none => v
  | .notice i =>
    match v.connections[i]? with
    | some c => if c.stage = .established then v.notice i c else v
    | none => v
  | .leave i =>
    match v.connections[i]? with
    | some c =>
      if c.stage = .leaving then
        { v with tracker := (v.tracker.remove c.session).2 }.setConnection i
          { c with stage := .ended }
      else v
    | none => v
  | .begin i r =>
    if v.busyWorkers < v.settings.workers.toNat then v.onRequests i (·.begin r) else v
  | .finish i r outcome => v.onRequests i fun w => w.finish v.dispatcher r outcome
  | .retire i r => v.onRequests i (·.retire r)
  | .look now i =>
    match v.connections[i]? with
    | some c => v.onSession c.session (v.keepAlive.look now)
    | none => v
  | .write now i outcome => v.stepWriter now i outcome
  | .drain now k => v.stepDrain now k
  | .setHealthy healthy => v.flagHealth healthy
  | .stepHealth k => v.stepHealth k
  | .shutdown => v.flagShutdown
  | .endAccepting => if v.stopping then { v with accepting := false } else v
  | .stepShutdown k => v.stepShutdown k

/-- The server after some steps. -/
def run (v : Server) (moves : List Move) : Server := moves.foldl next v

/-! ## Whole calls -/

/-- Sets the health and starts the drains that this calls for, with no other task in between. -/
def setHealthy (v : Server) (healthy : Bool) : Server :=
  { v with tracker := (v.tracker.setHealthy v.sessions healthy).2 }

/-- Shuts the server down, with no other task in between. -/
def shutDown (v : Server) : Server :=
  v.tracker.tracked.foldl (fun v id => v.tell id true)
    { v with stopping := true, acceptorTaken := true, accepting := false }

/-- The counters of the tracked sessions. -/
def stats (v : Server) : List SessionStats :=
  (v.tracker.sessions v.sessions).map fun e => e.2.stats

end Server

end RemoteCall
