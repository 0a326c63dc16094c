/-
# The handshake

The client opens with the versions that it supports and a name for itself.  The server answers
with the highest version that both support and an identifier for the session, or with a refusal;
either way it states the versions that it supports.
-/
import RemoteCall.Frame.Basic

namespace RemoteCall

open Wire

/-- The opening of a client. -/
structure Hello where
  /-- The versions that the client supports. -/
  range : VersionRange
  /-- The name of the client. -/
  clientId : String
deriving DecidableEq, Repr, Inhabited

/-- The answer of a server. -/
inductive Reply
  /-- A session is open at a version. -/
  | accepted (version : ProtocolVersion) (server : VersionRange) (sessionId : String)
  /-- There is no common version. -/
  | rejected (server : VersionRange)
deriving DecidableEq, Repr, Inhabited

/-- The failure of a payload that is malformed. -/
def ofMalformed {α : Type} : Except Malformed α → Except Failure α
  | .ok a => .ok a
  | .error e => .error e.toFailure

/-- Refuses a frame of another type than is due. -/
def expectType (f : Frame) (type : MessageType) : Except Failure Unit :=
  if f.type = type then .ok ()
  else .error <| .protocol <|
    "expected " ++ type.name ++ " during handshake, got " ++ f.type.name

/-- Takes the two ends of a range, unchecked. -/
def readEnds : Reader (UInt8 × UInt8) := do
  let low ← Reader.byte
  let high ← Reader.byte
  pure (low, high)

namespace Hello

/-- The frame of an opening. -/
def toFrame (h : Hello) : Frame :=
  Frame.make h.range.high .handshake 0
    (h.range.low.number :: h.range.high.number :: putText h.clientId)

/-- The opening of a frame. -/
def ofFrame (f : Frame) : Except Failure Hello := do
  expectType f .handshake
  let ((low, high), c) ← ofMalformed (StateT.run readEnds (Cursor.start f.payload))
  let range ← VersionRange.ofPeer low high
  let (clientId, _) ← ofMalformed (StateT.run Reader.text c)
  pure { range, clientId }

/-- The answer to an opening, from a server that supports a range. -/
def respond (h : Hello) (own : VersionRange) (sessionId : String) : Reply :=
  match own.negotiate? h.range with
  | some version => .accepted version own sessionId
  | none => .rejected own

end Hello

namespace Reply

/-- The versions that the server supports. -/
def server : Reply → VersionRange
  | accepted _ server _ => server
  | rejected server => server

/-- The payload of an answer: whether it is a refusal, the version, the range of the server, and
the identifier of the session. -/
def payload : Reply → List UInt8
  | accepted version server sessionId =>
    0 :: version.number :: server.low.number :: server.high.number :: putText sessionId
  | rejected server => 1 :: 0 :: server.low.number :: server.high.number :: putText ""

/-- The frame of an answer. -/
def toFrame (r : Reply) : Frame := Frame.make r.server.high .handshakeAck 0 r.payload

/-- The answer of a frame. -/
def ofFrame (f : Frame) : Except Failure Reply := do
  expectType f .handshakeAck
  let ((status, version), c) ← ofMalformed (StateT.run readEnds (Cursor.start f.payload))
  let ((low, high), c) ← ofMalformed (StateT.run readEnds c)
  let server ← VersionRange.ofPeer low high
  let (sessionId, _) ← ofMalformed (StateT.run Reader.text c)
  if status = 0 then .ok (.accepted ⟨version⟩ server sessionId)
  else if status = 1 then .ok (.rejected server)
  else .error (.framing s!"unknown handshake status {status}")

/-- What an answer means to a client that supports a range: the version and the identifier of the
session. -/
def negotiated (r : Reply) (own : VersionRange) : Except Failure (ProtocolVersion × String) :=
  match r with
  | accepted version server sessionId =>
    if own.contains version then .ok (version, sessionId)
    else .error <| .negotiationFailed <|
      "server chose " ++ version.text ++ " (server " ++ server.text ++
        ") outside local range " ++ own.text
  | rejected server => .error <| .negotiationFailed <|
      "no common version: local " ++ own.text ++ ", server " ++ server.text

end Reply

end RemoteCall
