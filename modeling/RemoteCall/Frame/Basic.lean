/-
# Frames

All traffic on a connection is a sequence of frames: a header of fourteen bytes (version, type,
correlation identifier, length of the payload) and the payload.  A frame is judged by its header
alone, before its payload has arrived; frames of the handshake are exempt from the check of
versions, because the handshake settles the version.
-/
import RemoteCall.Version
import RemoteCall.Wire.BigEndian
import RemoteCall.Wire.Reader

namespace RemoteCall

/-- The type of a frame. -/
inductive MessageType
  | handshake | handshakeAck | request | responseOk | responseFault | heartbeat | suspend
  | disconnect
deriving DecidableEq, Repr, Inhabited

namespace MessageType

/-- The byte of a type. -/
def byte : MessageType → UInt8
  | handshake => 0x01
  | handshakeAck => 0x02
  | request => 0x03
  | responseOk => 0x04
  | responseFault => 0x05
  | heartbeat => 0x06
  | suspend => 0x07
  | disconnect => 0x08

/-- All types. -/
def all : List MessageType :=
  [handshake, handshakeAck, request, responseOk, responseFault, heartbeat, suspend, disconnect]

/-- The type of a byte. -/
def ofByte? (b : UInt8) : Option MessageType := all.find? fun t => t.byte == b

/-- The name of a type, as it appears in messages. -/
def name : MessageType → String
  | handshake => "Handshake"
  | handshakeAck => "HandshakeAck"
  | request => "Request"
  | responseOk => "ResponseOk"
  | responseFault => "ResponseFault"
  | heartbeat => "Heartbeat"
  | suspend => "Suspend"
  | disconnect => "Disconnect"

/-- The type of a name. -/
def ofName? (name : String) : Option MessageType := all.find? fun t => t.name == name

/-- Whether frames of a type belong to one call. -/
def isCorrelated : MessageType → Bool
  | request | responseOk | responseFault => true
  | _ => false

/-- Whether frames of a type belong to the handshake. -/
def isHandshake : MessageType → Bool
  | handshake | handshakeAck => true
  | _ => false

/-- Whether frames of a type answer a request. -/
def isResponse : MessageType → Bool
  | responseOk | responseFault => true
  | _ => false

theorem ofByte?_byte (t : MessageType) : ofByte? t.byte = some t := by
  cases t <;> decide

theorem byte_of_ofByte? {b : UInt8} {t : MessageType} (h : ofByte? b = some t) :
    t.byte = b := by
  simpa using List.find?_some h

end MessageType

/-- A frame. -/
structure Frame where
  /-- The version in whose form the frame is. -/
  version : ProtocolVersion
  /-- Its type. -/
  type : MessageType
  /-- The call that it belongs to. -/
  correlation : UInt64
  /-- Its payload. -/
  payload : List UInt8
deriving DecidableEq, Repr, Inhabited

namespace Frame

/-- The number of bytes of a header. -/
def headerSize : Nat := 14

/-- The largest number of bytes of a payload. -/
def maxPayload : Nat := 64 * 1024 * 1024

/-- The frame of a payload.  A frame of a type that belongs to no call has no correlation
identifier. -/
def make (version : ProtocolVersion) (type : MessageType) (correlation : UInt64)
    (payload : List UInt8) : Frame :=
  { version, type, correlation := if type.isCorrelated then correlation else 0, payload }

/-- A frame without a payload that belongs to no call. -/
def control (version : ProtocolVersion) (type : MessageType) : Frame := make version type 0 []

/-- The number of bytes of a frame. -/
def size (f : Frame) : Nat := headerSize + f.payload.length

/-- Why bytes are no frame, or a frame cannot be written. -/
inductive Fault
  /-- The byte of the type is not known. -/
  | unknownType (byte : UInt8)
  /-- The version is not supported. -/
  | versionOutside (type : MessageType) (version : ProtocolVersion) (supported : VersionRange)
  /-- The version is not the one that has been agreed on. -/
  | versionDiffers (type : MessageType) (version pinned : ProtocolVersion)
  /-- The payload is too long. -/
  | payloadTooLong (length : Nat)
  /-- The connection ended inside a frame. -/
  | partialFrame (length : Nat)
deriving DecidableEq, Repr, Inhabited

/-- The text of a cause. -/
def Fault.message : Fault → String
  | unknownType byte => "unknown message type 0x" ++ String.ofList (Text.hexByte byte)
  | versionOutside type version supported =>
    type.name ++ " frame version " ++ version.text ++ " outside supported range " ++
      supported.text
  | versionDiffers type version pinned =>
    type.name ++ " frame version " ++ version.text ++ " differs from negotiated " ++ pinned.text
  | payloadTooLong length => s!"payload of {length} bytes exceeds maximum {maxPayload}"
  | partialFrame length => s!"connection closed with {length} bytes of a partial frame"

/-- The failure of an operation that met such bytes or such a frame. -/
def Fault.toFailure (e : Fault) : Failure := .framing e.message

/-! ## Writing -/

/-- The header of a frame. -/
def header (f : Frame) : List UInt8 :=
  f.version.number :: f.type.byte ::
    (Wire.bigEndian 8 f.correlation.toNat ++ Wire.bigEndian 4 f.payload.length)

/-- The bytes of a frame. -/
def encode (f : Frame) : Except Fault (List UInt8) :=
  if f.payload.length ≤ maxPayload then .ok (f.header ++ f.payload)
  else .error (.payloadTooLong f.payload.length)

end Frame

/-! ## Reading -/

/-- A header as sent. -/
structure FrameHeader where
  /-- The version. -/
  version : ProtocolVersion
  /-- The byte of the type. -/
  typeByte : UInt8
  /-- The correlation identifier. -/
  correlation : UInt64
  /-- The length of the payload. -/
  length : Nat
deriving DecidableEq, Repr, Inhabited

/-- The header at the front of some bytes, and the bytes behind it; nothing if there are too
few. -/
def FrameHeader.read? : List UInt8 → Option (FrameHeader × List UInt8)
  | version :: typeByte :: rest => do
    let (correlation, rest) ← Wire.splitAt? 8 rest
    let (length, rest) ← Wire.splitAt? 4 rest
    pure
      ({ version := ⟨version⟩
         typeByte
         correlation := UInt64.ofNat (Wire.ofBigEndian correlation)
         length := Wire.ofBigEndian length }, rest)
  | _ => none

theorem FrameHeader.read?_eq_some {bytes rest : List UInt8} {h : FrameHeader} :
    read? bytes = some (h, rest) ↔
      ∃ correlation length,
        correlation.length = 8 ∧ length.length = 4 ∧
        bytes = h.version.number :: h.typeByte :: (correlation ++ (length ++ rest)) ∧
        h.correlation = UInt64.ofNat (Wire.ofBigEndian correlation) ∧
        h.length = Wire.ofBigEndian length := by
  constructor
  · intro hread
    rcases bytes with _ | ⟨version, _ | ⟨typeByte, tail⟩⟩
    · cases hread
    · cases hread
    obtain ⟨⟨c, behind⟩, hc, hread⟩ := Option.bind_eq_some_iff.mp hread
    obtain ⟨⟨l, behind'⟩, hl, hread⟩ := Option.bind_eq_some_iff.mp hread
    cases hread
    obtain ⟨rfl, hc'⟩ := Wire.splitAt?_eq_some.mp hc
    obtain ⟨rfl, hl'⟩ := Wire.splitAt?_eq_some.mp hl
    exact ⟨c, l, hc', hl', rfl, rfl, rfl⟩
  · intro ⟨c, l, hc, hl, hbytes, hcorrelation, hlength⟩
    simp [hbytes, read?, Wire.splitAt?_append hc, Wire.splitAt?_append hl, ← hcorrelation,
      ← hlength]

/-- What one end accepts as a frame: the versions that it supports, and the version that has been
agreed on. -/
structure Framing where
  /-- The supported versions. -/
  supported : VersionRange
  /-- The agreed version. -/
  pinned : Option ProtocolVersion := none
deriving DecidableEq, Repr, Inhabited

namespace Framing

/-- The framing after a version has been agreed on. -/
def pin (c : Framing) (v : ProtocolVersion) : Framing := { c with pinned := some v }

/-- Checks the version of a frame. -/
def checkVersion (c : Framing) (type : MessageType) (version : ProtocolVersion) :
    Except Frame.Fault Unit :=
  if type.isHandshake then .ok ()
  else if !c.supported.contains version then
    .error (.versionOutside type version c.supported)
  else
    match c.pinned with
    | none => .ok ()
    | some pinned =>
      if version = pinned then .ok () else .error (.versionDiffers type version pinned)

/-- Checks a header and gives the type of its frame. -/
def checkHeader (c : Framing) (h : FrameHeader) : Except Frame.Fault MessageType :=
  match MessageType.ofByte? h.typeByte with
  | none => .error (.unknownType h.typeByte)
  | some type => do
    c.checkVersion type h.version
    if h.length ≤ Frame.maxPayload then .ok type else .error (.payloadTooLong h.length)

/-- The frame at the front of a buffer and the bytes behind it; nothing as long as more bytes are
needed. -/
def decode (c : Framing) (buffer : List UInt8) :
    Except Frame.Fault (Option (Frame × List UInt8)) :=
  match FrameHeader.read? buffer with
  | none => .ok none
  | some (h, rest) => do
    let type ← c.checkHeader h
    match Wire.splitAt? h.length rest with
    | none => .ok none
    | some (payload, rest) =>
      .ok (some ({ version := h.version, type, correlation := h.correlation, payload }, rest))

theorem decode_eq_frame {c : Framing} {buffer rest : List UInt8} {f : Frame} :
    c.decode buffer = .ok (some (f, rest)) ↔
      ∃ h behind, FrameHeader.read? buffer = some (h, behind) ∧ c.checkHeader h = .ok f.type ∧
        Wire.splitAt? h.length behind = some (f.payload, rest) ∧
        f.version = h.version ∧ f.correlation = h.correlation := by
  simp only [decode]
  constructor
  · intro hdecode
    rcases hread : FrameHeader.read? buffer with _ | ⟨h, behind⟩
    · simp [hread] at hdecode
    rcases hcheck : c.checkHeader h with e | type
    · simp [hread, hcheck, bind, Except.bind] at hdecode
    rcases hsplit : Wire.splitAt? h.length behind with _ | ⟨payload, rest'⟩
    · simp [hread, hcheck, hsplit, bind, Except.bind] at hdecode
    simp only [hread, hcheck, hsplit, bind, Except.bind] at hdecode
    cases hdecode
    exact ⟨h, behind, rfl, hcheck, hsplit, rfl, rfl⟩
  · intro ⟨h, behind, hread, hcheck, hsplit, hversion, hcorrelation⟩
    simp [hread, hcheck, hsplit, bind, Except.bind, ← hversion, ← hcorrelation]

theorem decode_eq_error {c : Framing} {buffer : List UInt8} {e : Frame.Fault} :
    c.decode buffer = .error e ↔
      ∃ h behind, FrameHeader.read? buffer = some (h, behind) ∧ c.checkHeader h = .error e := by
  simp only [decode]
  rcases hread : FrameHeader.read? buffer with _ | ⟨h, behind⟩
  · simp
  rcases hcheck : c.checkHeader h with e' | type
  · simp [hcheck, bind, Except.bind]
  · cases hsplit : Wire.splitAt? h.length behind <;> simp [hcheck, hsplit, bind, Except.bind]

/-- A frame takes as many bytes off the front of a buffer as it has. -/
theorem length_of_decode {c : Framing} {buffer rest : List UInt8} {f : Frame}
    (h : c.decode buffer = .ok (some (f, rest))) : buffer.length = f.size + rest.length := by
  obtain ⟨header, behind, hread, -, hsplit, -, -⟩ := decode_eq_frame.mp h
  obtain ⟨correlation, length, hc, hl, rfl, -, -⟩ := FrameHeader.read?_eq_some.mp hread
  obtain ⟨rfl, -⟩ := Wire.splitAt?_eq_some.mp hsplit
  simp only [Frame.size, Frame.headerSize, List.length_cons, List.length_append]
  omega

theorem length_lt_of_decode {c : Framing} {buffer rest : List UInt8} {f : Frame}
    (h : c.decode buffer = .ok (some (f, rest))) : rest.length < buffer.length := by
  rw [length_of_decode h, Frame.size, Frame.headerSize]
  omega

end Framing

end RemoteCall
