/-
# Calls and their answers

A client numbers its calls per session and keeps an entry for each one until its outcome is
known.  Three things end the wait: an answer with the number of the call, the deadline of the call,
and the loss of its session.  Whichever takes the entry out first decides the outcome, so that a
call has exactly one.

Sending a call and clearing out entries are made of several steps that other tasks may come
between; they are given step by step, and as a whole.

A deadline is a time, and there are waits so long that the clock cannot tell when they are over.
A task that is to let such a call wait breaks off: the call is counted by then, but has no entry
and never gets an outcome.
-/
import RemoteCall.Message
import RemoteCall.Session.Store

namespace RemoteCall

/-- A call. -/
structure Call where
  /-- What is asked. -/
  request : Request
  /-- How long the answer may take, if the call says so. -/
  timeout : Option Duration := none
  /-- Whether unknown constants are refused in the answer, if the call says so. -/
  strictEnums : Option Bool := none
deriving Repr, Inhabited

/-- The outcome of a call. -/
abbrev Outcome : Type := Except Failure Returned

/-- The place of a call among those that wait: its session and its number there. -/
structure CallKey where
  /-- The name of the session. -/
  session : String
  /-- The correlation identifier. -/
  correlation : UInt64
deriving DecidableEq, Repr, Inhabited

/-- What has been settled about a call when it was sent. -/
structure CallTerms where
  /-- The operation. -/
  operation : OperationKey
  /-- How long the answer may take. -/
  allowed : Duration
  /-- The declared type of the result. -/
  returns : Option TypeTag
  /-- How strictly the result is read. -/
  options : DecodeOptions
deriving DecidableEq, Repr, Inhabited

/-- When the wait for an answer ends, if the clock can tell that time. -/
def CallTerms.deadline? (terms : CallTerms) (now : Duration) : Option Duration :=
  now.later? terms.allowed .clockEnd

/-- A call that waits for its answer. -/
structure Pending where
  /-- Its place. -/
  key : CallKey
  /-- The number under which its outcome is reported. -/
  ticket : Nat
  /-- What has been settled about it. -/
  terms : CallTerms
  /-- When the wait ends. -/
  deadline : Duration
deriving DecidableEq, Repr, Inhabited

/-- What a client knows for all its calls. -/
structure Correlator where
  /-- The declarations. -/
  registry : Registry
  /-- How long an answer may take when a call does not say so. -/
  callTimeout : Duration
  /-- How strictly results are read when a call does not say so. -/
  options : DecodeOptions := {}
  /-- The calls that wait, the oldest one in front. -/
  pending : List Pending := []
deriving DecidableEq, Repr, Inhabited

namespace Correlator

/-- The call at a place. -/
def find? (c : Correlator) (key : CallKey) : Option Pending :=
  c.pending.find? fun p => p.key == key

/-- Takes out the call at a place. -/
def erase (c : Correlator) (key : CallKey) : Correlator :=
  { c with pending := c.pending.filter fun p => p.key != key }

/-- Lets a call wait at its place. -/
def enter (c : Correlator) (p : Pending) : Correlator :=
  { c with pending := (c.erase p.key).pending ++ [p] }

/-- What is settled about a call when it is sent. -/
def terms (c : Correlator) (call : Call) : CallTerms :=
  { operation := call.request.key
    allowed := call.timeout.getD c.callTimeout
    returns := (c.registry.operation? call.request.key).bind OperationDecl.returns
    options := (call.strictEnums.map fun strictEnums => { strictEnums }).getD c.options }

/-- The outcome that an answer means for the call that it belongs to. -/
def outcomeOf (c : Correlator) (terms : CallTerms) (answer : Frame) : Outcome :=
  match answer.type with
  | .responseOk => Returned.decode c.registry terms.options terms.returns answer.payload
  | .responseFault =>
    match Fault.decode answer.payload with
    | .ok f => .error (.fault f)
    | .error e => .error e
  | other => .error (.protocol (other.name ++ " is not a response"))

end Correlator

/-- The calls of a client over its sessions. -/
structure Calls where
  /-- What is known for all calls. -/
  correlator : Correlator
  /-- The sessions. -/
  sessions : Sessions := []
  /-- The number of calls that have been made; the next one gets this number. -/
  made : Nat := 0
  /-- The outcomes that have been reported, the first one in front. -/
  reported : List (Nat × Outcome) := []

namespace Calls

/-- Reports the outcome of a call. -/
def report (x : Calls) (ticket : Nat) (outcome : Outcome) : Calls :=
  { x with reported := x.reported ++ [(ticket, outcome)] }

/-- The session of a name. -/
def session? (x : Calls) (id : String) : Option Session := Named.get? x.sessions id

/-- Changes a session. -/
def onSession (x : Calls) (id : String) (f : Session → Session) : Calls :=
  { x with sessions := x.sessions.modify id f }

/-- Takes out the call at a place, which is then no longer outstanding. -/
def take? (x : Calls) (key : CallKey) : Option (Pending × Calls) :=
  (x.correlator.find? key).map fun p =>
    (p, { x with correlator := x.correlator.erase key }.onSession key.session Session.countDown)

/-- Ends the wait of the call at a place, if one waits there, and says whether one did. -/
def resolve (x : Calls) (key : CallKey) (outcome : Pending → Outcome) : Bool × Calls :=
  match x.take? key with
  | none => (false, x)
  | some (p, x) => (true, x.report p.ticket (outcome p))

/-! ## Sending -/

/-- How far the sending of a call has come. -/
inductive SendStage
  /-- The session was active, and the payload is there. -/
  | checked
  /-- The call has its number. -/
  | numbered (correlation : UInt64)
  /-- The call is counted as outstanding. -/
  | counted (correlation : UInt64)
  /-- The call waits. -/
  | entered (correlation : UInt64)
  /-- The session was not over. -/
  | admitted (correlation : UInt64)
  /-- The session did not take the frame. -/
  | refused (correlation : UInt64) (failure : Failure)
  /-- The call has been sent, or its outcome has been reported. -/
  | returned
  /-- The call is counted, and the task has broken off for want of a deadline. -/
  | brokenOff
deriving DecidableEq, Repr, Inhabited

/-- A call that is being sent. -/
structure Sending where
  /-- The number under which its outcome is reported. -/
  ticket : Nat
  /-- The session. -/
  session : String
  /-- The version of the session. -/
  version : ProtocolVersion
  /-- The payload of the request. -/
  payload : List UInt8
  /-- What has been settled about the call. -/
  terms : CallTerms
  /-- How far it has come. -/
  stage : SendStage := .checked
deriving DecidableEq, Repr, Inhabited

/-- The version and the payload of a call on a session, if the session takes calls. -/
def prepare (s : Session) (call : Call) : Except Failure (ProtocolVersion × List UInt8) :=
  if !s.isActive then
    .error (.communicationFailure ("session " ++ s.id ++ " is " ++ s.state.name))
  else
    match s.version with
    | none => .error (.protocol "session not negotiated")
    | some version => do
      let payload ← call.request.encode version
      .ok (version, payload)

/-- Begins to send a call.  A call that cannot be sent has its outcome at once. -/
def begin (x : Calls) (id : String) (call : Call) : Calls × Option Sending :=
  let ticket := x.made
  let x := { x with made := ticket + 1 }
  match x.session? id with
  | none => (x.report ticket (.error .notConnected), none)
  | some s =>
    match prepare s call with
    | .error e => (x.report ticket (.error e), none)
    | .ok (version, payload) =>
      (x, some { ticket, session := id, version, payload, terms := x.correlator.terms call })

/-- The frame of a call. -/
def Sending.frame (p : Sending) (correlation : UInt64) : Frame :=
  .make p.version .request correlation p.payload

/-- The entry of a call under its number. -/
def Sending.entry (p : Sending) (deadline : Duration) (correlation : UInt64) : Pending :=
  { key := { session := p.session, correlation }
    ticket := p.ticket
    terms := p.terms
    deadline }

/-- The next step of sending a call.  The call waits before its frame is in the queue, so that even
the fastest answer finds it. -/
def advance (x : Calls) (now : Duration) (p : Sending) : Calls × Sending :=
  match p.stage with
  | .checked =>
    match x.sessions.update p.session Session.takeCorrelation with
    | none => (x, { p with stage := .returned })
    | some (correlation, sessions) =>
      ({ x with sessions }, { p with stage := .numbered correlation })
  | .numbered n => (x.onSession p.session Session.countUp, { p with stage := .counted n })
  | .counted n =>
    match p.terms.deadline? now with
    | none => (x, { p with stage := .brokenOff })
    | some deadline =>
      ({ x with correlator := x.correlator.enter (p.entry deadline n) },
        { p with stage := .entered n })
  | .entered n =>
    match x.session? p.session with
    | none => (x, { p with stage := .returned })
    | some s =>
      match s.letPass with
      | .ok () => (x, { p with stage := .admitted n })
      | .error e => (x, { p with stage := .refused n e })
  | .admitted n =>
    match x.session? p.session with
    | none => (x, { p with stage := .returned })
    | some s =>
      match s.push (p.frame n) with
      | .ok s => (x.onSession p.session fun _ => s, { p with stage := .returned })
      | .error e => (x, { p with stage := .refused n e })
  | .refused n e =>
    ((x.resolve { session := p.session, correlation := n } fun _ => .error e).2,
      { p with stage := .returned })
  | .returned | .brokenOff => (x, p)

/-- Some steps of sending a call. -/
def advanceBy (now : Duration) : Nat → Calls → Sending → Calls × Sending
  | 0, x, p => (x, p)
  | n + 1, x, p =>
    let (x, p) := x.advance now p
    advanceBy now n x p

/-- The number of steps that sending a call takes at most. -/
def sendSteps : Nat := 6

/-- Sends a call, with the task that has done so, if it was to be sent at all. -/
def sendTask (x : Calls) (now : Duration) (id : String) (call : Call) : Calls × Option Sending :=
  match x.begin id call with
  | (x, none) => (x, none)
  | (x, some p) =>
    let (x, p) := advanceBy now sendSteps x p
    (x, some p)

/-- Sends a call. -/
def send (x : Calls) (now : Duration) (id : String) (call : Call) : Calls :=
  (x.sendTask now id call).1

/-- The task that breaks off when a call is sent, if it does. -/
def brokenOff? (x : Calls) (now : Duration) (id : String) (call : Call) : Option Sending :=
  (x.sendTask now id call).2.filter fun p => p.stage == .brokenOff

/-! ## Ending the wait -/

/-- Takes an answer that came on a session.  An answer that no call waits for is dropped. -/
def onAnswer (x : Calls) (id : String) (answer : Frame) : Calls :=
  (x.resolve { session := id, correlation := answer.correlation } fun p =>
    x.correlator.outcomeOf p.terms answer).2

/-- Why entries are cleared out. -/
inductive ClearReason
  /-- Their time is up. -/
  | expired
  /-- Their session is lost. -/
  | lost (reason : String)
deriving DecidableEq, Repr, Inhabited

/-- The outcome of a call that is cleared out. -/
def ClearReason.outcome (p : Pending) : ClearReason → Outcome
  | expired => .error (.timeout p.terms.allowed)
  | lost reason =>
    .error (.communicationFailure ("session " ++ p.key.session ++ " closed: " ++ reason))

/-- A task that clears out entries, one at a time. -/
structure Clearing where
  /-- Why. -/
  reason : ClearReason
  /-- The places that are still to be looked at. -/
  keys : List CallKey
  /-- The number of calls that it has ended. -/
  count : Nat := 0
deriving DecidableEq, Repr, Inhabited

/-- Begins to clear out the calls whose deadline has come. -/
def beginSweep (x : Calls) (now : Duration) : Clearing :=
  { reason := .expired
    keys := (x.correlator.pending.filter fun p => p.deadline.nanos ≤ now.nanos).map Pending.key }

/-- Begins to clear out the calls of a session that is lost. -/
def beginFail (x : Calls) (id reason : String) : Clearing :=
  { reason := .lost reason
    keys := (x.correlator.pending.filter fun p => p.key.session == id).map Pending.key }

/-- The next step of clearing out: looks at one place. -/
def clearOne (x : Calls) (c : Clearing) : Calls × Clearing :=
  match c.keys with
  | [] => (x, c)
  | key :: keys =>
    let (ended, x) := x.resolve key c.reason.outcome
    (x, { c with keys, count := c.count + ended.toNat })

/-- Looks at some places. -/
def clearKeys (x : Calls) (reason : ClearReason) : List CallKey → Nat → Nat × Calls
  | [], count => (count, x)
  | key :: keys, count =>
    let (ended, x) := x.resolve key reason.outcome
    clearKeys x reason keys (count + ended.toNat)

/-- Clears out everything that a task is to look at, and gives the number of calls ended. -/
def clear (x : Calls) (c : Clearing) : Nat × Calls := x.clearKeys c.reason c.keys c.count

/-- Ends the calls whose deadline has come, and gives their number. -/
def sweep (x : Calls) (now : Duration) : Nat × Calls := x.clear (x.beginSweep now)

/-- Ends the calls of a session that is lost, and gives their number. -/
def failSession (x : Calls) (id reason : String) : Nat × Calls := x.clear (x.beginFail id reason)

/-! ## Runs -/

/-- Something that happens to the calls of a client. -/
inductive Event
  /-- A call is sent on a session. -/
  | send (now : Duration) (session : String) (call : Call)
  /-- An answer comes on a session. -/
  | answer (session : String) (frame : Frame)
  /-- The deadlines are looked at. -/
  | sweep (now : Duration)
  /-- The calls of a session are given up. -/
  | fail (session reason : String)
  /-- A session is used for something else: it is moved to a state or ended, its version is settled,
  or it sends a frame of another kind. -/
  | perform (session : String) (call : SessionCall)
  /-- The queue of a session loses its reader. -/
  | dropQueue (session : String)

/-- The calls of a client after an event. -/
def next (x : Calls) : Event → Calls
  | .send now id call => x.send now id call
  | .answer id frame => x.onAnswer id frame
  | .sweep now => (x.sweep now).2
  | .fail id reason => (x.failSession id reason).2
  | .perform id call => x.onSession id fun s => (s.perform call).1
  | .dropQueue id => x.onSession id Session.dropQueue

/-- The calls of a client after some events. -/
def run (x : Calls) (events : List Event) : Calls := events.foldl next x

theorem run_append (x : Calls) (es fs : List Event) : x.run (es ++ fs) = (x.run es).run fs := by
  simp [run]

end Calls

end RemoteCall
