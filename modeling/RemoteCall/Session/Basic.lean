/-
# Sessions

A session is what one end of a connection knows about it: the state, the version that has been
agreed on, the frames that wait to be written, and counters.  Any number of tasks use it at the
same time.  Every operation below is one step that no other task can come between, apart from
the sending of a frame, which first looks at the state and then puts the frame into the queue; its
two halves can be used on their own.
-/
import RemoteCall.Address.Socket
import RemoteCall.Frame.Basic
import RemoteCall.Session.State

namespace RemoteCall

/-- The part that one end plays in a connection. -/
inductive Role
  /-- It made the connection. -/
  | client
  /-- It took the connection. -/
  | server
deriving DecidableEq, Repr, Inhabited

/-- The name of a part. -/
def Role.name : Role → String
  | client => "Client"
  | server => "Server"

/-- How much has gone in one direction. -/
structure Traffic where
  /-- The number of frames. -/
  frames : Nat := 0
  /-- The number of bytes, headers included. -/
  bytes : Nat := 0
deriving DecidableEq, Repr, Inhabited

/-- One more frame of a given size. -/
def Traffic.add (t : Traffic) (size : Nat) : Traffic :=
  { frames := t.frames + 1, bytes := t.bytes + size }

/-- A session. -/
structure Session where
  /-- The name of the session at this end. -/
  id : String
  /-- The part of this end. -/
  role : Role
  /-- The address of the other end. -/
  remote : SocketAddress
  /-- The name that the other end gave: to a client the session of the server, to a server the
  name of the client. -/
  peer : Option String := none
  /-- The version that has been agreed on. -/
  version : Option ProtocolVersion := none
  /-- The state. -/
  state : SessionState := .connecting
  /-- When the session was made. -/
  created : Duration := ⟨0⟩
  /-- The milliseconds from then to the last frame that was read. -/
  lastRead : Nat := 0
  /-- The milliseconds from then to the last frame that was written. -/
  lastWrite : Nat := 0
  /-- The number of requests that have not been answered yet. -/
  outstanding : Nat := 0
  /-- The correlation identifier of the next request. -/
  nextCorrelation : UInt64 := 1
  /-- The frames that wait to be written, the first one in front. -/
  queue : List Frame := []
  /-- Whether there is still a reader of the queue. -/
  queueOpen : Bool := true
  /-- What has been written. -/
  sent : Traffic := {}
  /-- What has been read. -/
  received : Traffic := {}
deriving DecidableEq, Repr, Inhabited

namespace Session

/-- Whether new requests may be sent. -/
def isActive (s : Session) : Bool := s.state == .active

/-! ## State and version -/

/-- Moves a session to another state and gives the state that it was in. -/
def moveTo (s : Session) (next : SessionState) : Except Failure (SessionState × Session) :=
  if s.state.mayBecome next then .ok (s.state, { s with state := next })
  else .error <| .protocol <|
    "session " ++ s.id ++ ": illegal transition " ++ s.state.name ++ " -> " ++ next.name

/-- Ends a session, whatever its state, and says whether it was this call that ended it. -/
def forceDisconnect (s : Session) : Bool × Session :=
  if s.state.isTerminal then (false, s) else (true, { s with state := .disconnected })

/-- A session after its end. -/
def closed (s : Session) : Session := s.forceDisconnect.2

/-- Settles the version, which is done once. -/
def setVersion (s : Session) (v : ProtocolVersion) : Except Failure Session :=
  match s.version with
  | none => .ok { s with version := some v }
  | some _ => .error (.protocol ("session " ++ s.id ++ " already negotiated"))

/-- Notes the name that the other end gave, which is done once. -/
def setPeer (s : Session) (name : String) : Session := { s with peer := s.peer.or (some name) }

/-! ## Sending -/

/-- Lets a frame pass unless the session is over. -/
def letPass (s : Session) : Except Failure Unit :=
  if s.state.isTerminal then
    .error (.communicationFailure ("session " ++ s.id ++ " is disconnected"))
  else .ok ()

/-- Puts a frame at the end of the queue, as long as there is a reader of it. -/
def push (s : Session) (f : Frame) : Except Failure Session :=
  if s.queueOpen then .ok { s with queue := s.queue ++ [f] }
  else .error (.communicationFailure ("session " ++ s.id ++ " writer has stopped"))

/-- Sends a frame. -/
def sendFrame (s : Session) (f : Frame) : Except Failure Session := do
  s.letPass
  s.push f

/-- Sends a frame without a payload at the agreed version. -/
def sendControl (s : Session) (type : MessageType) : Except Failure Session :=
  match s.version with
  | none => .error (.protocol ("session " ++ s.id ++ " has no negotiated version"))
  | some v => s.sendFrame (.control v type)

/-- The frames that wait to be written, taken out of the queue. -/
def takeQueue (s : Session) : List Frame × Session := (s.queue, { s with queue := [] })

/-- A session whose queue is not read any more; what waited in it is lost. -/
def dropQueue (s : Session) : Session := { s with queue := [], queueOpen := false }

/-! ## Counters -/

/-- Hands out a correlation identifier. -/
def takeCorrelation (s : Session) : UInt64 × Session :=
  (s.nextCorrelation, { s with nextCorrelation := s.nextCorrelation + 1 })

/-- Counts a request that has not been answered. -/
def countUp (s : Session) : Session := { s with outstanding := s.outstanding + 1 }

/-- Counts an answer; the count does not go below zero. -/
def countDown (s : Session) : Session := { s with outstanding := s.outstanding - 1 }

/-- The age of a session in whole milliseconds. -/
def age (s : Session) (now : Duration) : Nat := Duration.millis ⟨now.nanos - s.created.nanos⟩

/-- Notes a frame that was read. -/
def recordRead (s : Session) (now : Duration) (size : Nat) : Session :=
  { s with lastRead := s.age now, received := s.received.add size }

/-- Notes a frame that was written. -/
def recordWrite (s : Session) (now : Duration) (size : Nat) : Session :=
  { s with lastWrite := s.age now, sent := s.sent.add size }

/-- The time since a frame was read, in whole milliseconds. -/
def readIdle (s : Session) (now : Duration) : Duration := .ofMillis (s.age now - s.lastRead)

/-- The time since a frame was written, in whole milliseconds. -/
def writeIdle (s : Session) (now : Duration) : Duration := .ofMillis (s.age now - s.lastWrite)

end Session

/-! ## Sessions under any sequence of calls -/

/-- A call that changes a session. -/
inductive SessionCall
  /-- Moves it to a state. -/
  | moveTo (next : SessionState)
  /-- Ends it. -/
  | forceDisconnect
  /-- Settles the version. -/
  | setVersion (version : ProtocolVersion)
  /-- Sends a frame. -/
  | sendFrame (frame : Frame)
  /-- Sends a frame without a payload. -/
  | sendControl (type : MessageType)
deriving DecidableEq, Repr, Inhabited

/-- What a call reports. -/
inductive SessionReport
  /-- The session has left a state for another one. -/
  | moved (previous : SessionState)
  /-- Whether it was this call that ended the session. -/
  | forced (changed : Bool)
  /-- The call was carried out. -/
  | done
  /-- The call was refused. -/
  | refused (failure : Failure)
deriving DecidableEq, Repr, Inhabited

namespace Session

/-- The session that a call leaves, and its report, given what the call makes of the session. -/
def settle (s : Session) : Except Failure Session → Session × SessionReport
  | .ok t => (t, .done)
  | .error e => (s, .refused e)

/-- Carries out a call. -/
def perform (s : Session) : SessionCall → Session × SessionReport
  | .moveTo next =>
    match s.moveTo next with
    | .ok (previous, t) => (t, .moved previous)
    | .error e => (s, .refused e)
  | .forceDisconnect => (s.forceDisconnect.2, .forced s.forceDisconnect.1)
  | .setVersion v => s.settle (s.setVersion v)
  | .sendFrame f => s.settle (s.sendFrame f)
  | .sendControl t => s.settle (s.sendControl t)

/-- A session after some calls, and their reports. -/
def performAll (s : Session) : List SessionCall → Session × List SessionReport
  | [] => (s, [])
  | c :: cs =>
    let (t, report) := s.perform c
    let (u, reports) := t.performAll cs
    (u, report :: reports)

/-- A session as far as it comes towards a state: every move that is allowed is made. -/
def walkTo (s : Session) (target : SessionState) : Session :=
  (s.performAll (target.path.map .moveTo)).1

end Session

end RemoteCall
