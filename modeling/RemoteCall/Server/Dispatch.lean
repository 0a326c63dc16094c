/-
# Answering requests

A request is decoded, its operation looked up and its arguments fitted to the parameters.  If all
of that succeeds the handler runs; either way the request is answered, with a result or with a
fault, under its own correlation identifier.

A request counts as outstanding from its arrival until its answer is in the queue: the answer goes
into the queue first, and the count goes down in a later step.
-/
import RemoteCall.Frame.Incoming
import RemoteCall.Server.Operations
import RemoteCall.Session.Basic

namespace RemoteCall

/-- The result or the fault that stands for the end of a handler. -/
def HandlerOutcome.result : HandlerOutcome → Except Fault Returned
  | returned r => .ok r
  | refused f => .error f
  | brokeDown => .error { code := .server, message := "operation handler panicked" }

/-- What a server answers requests with. -/
structure Dispatcher where
  /-- The operations. -/
  operations : Operations
  /-- How strictly arguments are read. -/
  options : DecodeOptions := {}

namespace Dispatcher

/-- The handler of a request and what it is told, unless the request is rejected. -/
def prepare (d : Dispatcher) (s : Session) (version : ProtocolVersion) (payload : List UInt8) :
    Except Failure (Handler × Invocation) := do
  let r ← Request.decode version payload
  let operation ← d.operations.lookUp r.key
  let arguments ← r.bind d.operations.registry d.options operation.decl.params
  pure
    (operation.handler,
      { key := r.key, context := r.context, arguments, session := s.id, remote := s.remote })

/-- The frame of a fault. -/
def faultFrame (version : ProtocolVersion) (correlation : UInt64) (f : Fault) : Frame :=
  .make version .responseFault correlation f.encode

/-- The frame of a result or a fault.  A result that cannot be written becomes a fault. -/
def answerFrame (version : ProtocolVersion) (correlation : UInt64) :
    Except Fault Returned → Frame
  | .error f => faultFrame version correlation f
  | .ok r =>
    match r.encode with
    | .ok payload => .make version .responseOk correlation payload
    | .error e => faultFrame version correlation e.toFault

/-- The answer to a request whose handler, if it runs, ends in a given way. -/
def answer (d : Dispatcher) (s : Session) (version : ProtocolVersion) (request : Frame)
    (outcome : HandlerOutcome) : Frame :=
  answerFrame version request.correlation <|
    match d.prepare s version request.payload with
    | .error e => .error e.toFault
    | .ok _ => outcome.result

end Dispatcher

/-! ## Requests under way -/

/-- How far the answering of a request has come. -/
inductive RequestStage
  /-- It waits for a worker. -/
  | waiting
  /-- A worker has it. -/
  | running
  /-- Its answer has been let pass; it is not in the queue yet. -/
  | admitted (answer : Frame)
  /-- Its answer has been sent, or was refused; it still counts as outstanding. -/
  | answered
deriving DecidableEq, Repr, Inhabited

/-- A request under way. -/
structure RequestTask where
  /-- The frame of the request. -/
  request : Frame
  /-- How far it has come. -/
  stage : RequestStage := .waiting
deriving DecidableEq, Repr, Inhabited

/-- A session of a server with its requests under way. -/
structure Serving where
  /-- The session. -/
  session : Session
  /-- The requests, the oldest one in front. -/
  requests : List RequestTask := []
deriving DecidableEq, Repr, Inhabited

namespace Serving

/-- Takes a request that has arrived. -/
def arrive (v : Serving) (request : Frame) : Serving :=
  { session := v.session.countUp, requests := v.requests ++ [{ request }] }

/-- Gives a request to a worker. -/
def begin (v : Serving) (i : Nat) : Serving :=
  match v.requests[i]? with
  | some { request, stage := .waiting } =>
    { v with requests := v.requests.set i { request, stage := .running } }
  | _ => v

/-- How a request goes on whose handler, if it ran, has ended: its answer is let pass unless the
session is over. -/
def admission (d : Dispatcher) (v : Serving) (request : Frame) (outcome : HandlerOutcome) :
    RequestStage :=
  match v.session.version, v.session.letPass with
  | some version, .ok () => .admitted (d.answer v.session version request outcome)
  | _, _ => .answered

/-- Lets the answer to a request pass. -/
def pass (d : Dispatcher) (v : Serving) (i : Nat) (outcome : HandlerOutcome) : Serving :=
  match v.requests[i]? with
  | some { request, stage := .running } =>
    { v with
      requests := v.requests.set i { request, stage := v.admission d request outcome } }
  | _ => v

/-- Puts an answer that was let pass into the queue, if there is still a reader of it. -/
def enqueue (v : Serving) (i : Nat) : Serving :=
  match v.requests[i]? with
  | some { request, stage := .admitted answer } =>
    { session :=
        match v.session.push answer with
        | .ok s => s
        | .error _ => v.session
      requests := v.requests.set i { request, stage := .answered } }
  | _ => v

/-- Sends the answer to a request whose handler, if it ran, has ended, with no other task in
between. -/
def finish (d : Dispatcher) (v : Serving) (i : Nat) (outcome : HandlerOutcome) : Serving :=
  (v.pass d i outcome).enqueue i

/-- Takes an answered request off the count. -/
def retire (v : Serving) (i : Nat) : Serving :=
  match v.requests[i]? with
  | some { stage := .answered, .. } =>
    { session := v.session.countDown, requests := v.requests.eraseIdx i }
  | _ => v

/-- What a server does with what its reader meets on an open session; the flag says whether it
goes on reading. -/
def receive (v : Serving) (now : Duration) : Incoming → Bool × Serving
  | .frame f =>
    let v := { v with session := v.session.recordRead now f.size }
    match f.type with
    | .request => (true, v.arrive f)
    | .heartbeat => (true, v)
    | .suspend => (true, { v with session := (v.session.perform (.moveTo .suspending)).1 })
    | _ => (false, { v with session := v.session.closed })
  | _ => (false, { v with session := v.session.closed })

end Serving

end RemoteCall
