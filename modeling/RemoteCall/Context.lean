/-
# The context of a call

A call carries who makes it, from where, when it was received, whether it is traced, and which
request it belongs to.  The context is sent in front of the arguments without a delimiter, and
some of its parts are sent only from a version on; writer and reader decide by the same version.
-/
import RemoteCall.Attributes
import RemoteCall.Version
import RemoteCall.Wire.BigEndian
import RemoteCall.Wire.Reader

namespace RemoteCall

/-! ## Points in time -/

/-- A point in time: nanoseconds since the start of 1970, within the years that the calendar
reaches. -/
structure Timestamp where
  /-- The number of nanoseconds. -/
  nanos : Int
  /-- The year lies between -262143 and 262142. -/
  inCalendar : -8334601228800000 ≤ nanos / 1000000 ∧ nanos / 1000000 ≤ 8210266876799999
deriving DecidableEq, Repr

namespace Timestamp

/-- The start of 1970. -/
def epoch : Timestamp := ⟨0, by decide⟩

instance : Inhabited Timestamp := ⟨epoch⟩

/-- The number of whole milliseconds, rounded down. -/
def millis (t : Timestamp) : Int := t.nanos / 1000000

/-- The point in time of a number of nanoseconds, if the calendar reaches it. -/
def ofNanos? (n : Int) : Option Timestamp :=
  if h : -8334601228800000 ≤ n / 1000000 ∧ n / 1000000 ≤ 8210266876799999 then some ⟨n, h⟩
  else none

/-- The point in time of a number of milliseconds, if the calendar reaches it. -/
def ofMillis? (m : Int) : Option Timestamp := ofNanos? (m * 1000000)

theorem ofNanos?_eq_some {n : Int}
    (h : -8334601228800000 ≤ n / 1000000 ∧ n / 1000000 ≤ 8210266876799999) :
    ofNanos? n = some ⟨n, h⟩ :=
  dif_pos h

end Timestamp

/-! ## Identifiers of requests -/

/-- A universally unique identifier. -/
structure Uuid where
  /-- Its 128 bits. -/
  bits : BitVec 128
deriving DecidableEq, Repr, Inhabited

namespace Uuid

/-- The sixteen bytes of an identifier. -/
def bytes (u : Uuid) : List UInt8 := Wire.bigEndian 16 u.bits.toNat

/-- The identifier of sixteen bytes. -/
def ofBytes (b : List UInt8) : Uuid := ⟨BitVec.ofNat 128 (Wire.ofBigEndian b)⟩

theorem ofBytes_bytes (u : Uuid) : ofBytes u.bytes = u := by
  have h : u.bits.toNat < Nat.pow 256 16 := u.bits.isLt
  simp only [ofBytes, bytes, Wire.ofBigEndian_bigEndian, Nat.mod_eq_of_lt h, BitVec.ofNat_toNat,
    BitVec.setWidth_eq]

/-- The digits of an identifier. -/
def text (u : Uuid) : String := Text.hexOfBytes u.bytes

end Uuid

/-- The place of a request in a chain of requests. -/
structure RequestId where
  /-- The request itself. -/
  own : Uuid
  /-- The first request of the chain, unless it is this one. -/
  root : Option Uuid := none
  /-- The request that made this one. -/
  parent : Option Uuid := none
deriving DecidableEq, Repr, Inhabited

/-- A request made on behalf of another one, under a fresh identifier. -/
def RequestId.child (r : RequestId) (fresh : Uuid) : RequestId :=
  { own := fresh, root := some (r.root.getD r.own), parent := some r.own }

/-! ## Contexts -/

/-- A proof of identity. -/
structure IdentityToken where
  /-- What kind of proof it is. -/
  name : String
  /-- The proof. -/
  value : String
deriving DecidableEq, Repr, Inhabited

/-- Where a call comes from. -/
structure Location where
  /-- The address of the caller. -/
  remoteAddress : String
  /-- The addresses that it stands for. -/
  resolved : List String := []
  /-- The country that the caller states. -/
  country : Option String := none
  /-- The country that the address suggests. -/
  inferredCountry : Option String := none
deriving DecidableEq, Repr, Inhabited

/-- The context of a call. -/
structure Context where
  /-- Who makes the call. -/
  identity : List IdentityToken := []
  /-- Where it comes from. -/
  location : Option Location := none
  /-- When it was received. -/
  received : Timestamp := .epoch
  /-- Whether it is traced. -/
  traced : Bool := false
  /-- Which request it belongs to. -/
  request : RequestId := default
  /-- Further attributes. -/
  additional : Attributes := {}
deriving DecidableEq, Repr, Inhabited

namespace Context

/-- The context of a call made on behalf of another one. -/
def child (c : Context) (fresh : Uuid) : Context :=
  { c with request := c.request.child fresh }

open Wire

/-! ## Writing -/

/-- The bytes of a pair of texts. -/
def putPair (p : String × String) : List UInt8 := putText p.1 ++ putText p.2

/-- The bytes of a location. -/
def putLocation (v : ProtocolVersion) (l : Location) : List UInt8 :=
  putText l.remoteAddress ++ putCounted putText l.resolved ++ putOptional putText l.country ++
    if v.supports .inferredCountry then putOptional putText l.inferredCountry else []

/-- The bytes of a context. -/
def encode (v : ProtocolVersion) (c : Context) : List UInt8 :=
  putCounted (fun t => putPair (t.name, t.value)) c.identity ++
  (putOptional (putLocation v) c.location ++
  (Varint.encodeSigned (Int64.ofInt c.received.millis) ++
  (putFlag c.traced ++
  (c.request.own.bytes ++
  ((if v.supports .requestChain then
      putOptional Uuid.bytes c.request.root ++ putOptional Uuid.bytes c.request.parent
    else []) ++
  (if v.supports .additionalContext then putCounted putPair c.additional.entries else []))))))

/-! ## Reading -/

/-- Takes an element that is sent only from a version on. -/
def since {α : Type} (introduced v : ProtocolVersion) (absent : α) (element : Reader α) :
    Reader α :=
  if v.supports introduced then element else pure absent

/-- Takes a pair of texts. -/
def readPair : Reader (String × String) := do
  let first ← Reader.text
  let second ← Reader.text
  pure (first, second)

/-- Takes a proof of identity. -/
def readToken : Reader IdentityToken := do
  let (name, value) ← readPair
  pure { name, value }

/-- Takes a location. -/
def readLocation (v : ProtocolVersion) : Reader Location := do
  let remoteAddress ← Reader.text
  let resolved ← Reader.counted Reader.text
  let country ← Reader.optional Reader.text
  let inferredCountry ← since .inferredCountry v none (Reader.optional Reader.text)
  pure { remoteAddress, resolved, country, inferredCountry }

/-- Takes a point in time. -/
def readTimestamp : Reader Timestamp := do
  let millis := (Varint.unfold (← Reader.number)).toInt
  match Timestamp.ofMillis? millis with
  | some t => pure t
  | none => throw (.timeOutOfRange millis)

/-- Takes an identifier. -/
def readUuid : Reader Uuid := do
  let b ← Reader.take 16
  pure (.ofBytes b)

/-- Takes a context. -/
def read (v : ProtocolVersion) : Reader Context := do
  let identity ← Reader.counted readToken
  let location ← Reader.optional (readLocation v)
  let received ← readTimestamp
  let traced ← Reader.flag
  let own ← readUuid
  let root ← since .requestChain v none (Reader.optional readUuid)
  let parent ← since .requestChain v none (Reader.optional readUuid)
  let additional ← since .additionalContext v [] (Reader.counted readPair)
  pure
    { identity, location, received, traced
      request := { own, root, parent }
      additional := .ofList additional }

end Context

end RemoteCall
