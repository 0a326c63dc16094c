/-
# Protocol versions

The two ends of a connection each support a range of versions and agree on the highest one that
both support.  Some parts of the protocol exist only from a version on.
-/
import RemoteCall.Failure

namespace RemoteCall

/-- A version of the protocol. -/
structure ProtocolVersion where
  /-- The number of the version, as sent. -/
  number : UInt8
deriving DecidableEq, Repr, Inhabited

namespace ProtocolVersion

/-- The oldest version that this library speaks. -/
def oldest : ProtocolVersion := ⟨1⟩

/-- The newest version that this library speaks. -/
def newest : ProtocolVersion := ⟨5⟩

/-- The text of a version. -/
def text (v : ProtocolVersion) : String := s!"v{v.number}"

/-- Whether a version has what another version introduced. -/
def supports (v introduced : ProtocolVersion) : Bool := introduced.number ≤ v.number

/-- The version that introduced the inferred country of a location. -/
def inferredCountry : ProtocolVersion := ⟨2⟩

/-- The version that introduced the root and the parent of a request. -/
def requestChain : ProtocolVersion := ⟨3⟩

/-- The version that introduced further attributes of a context. -/
def additionalContext : ProtocolVersion := ⟨4⟩

/-- The version that introduced the announcement of a drain. -/
def suspend : ProtocolVersion := ⟨5⟩

end ProtocolVersion

/-- A range of versions, both ends included. -/
structure VersionRange where
  /-- The oldest version of the range. -/
  low : ProtocolVersion
  /-- The newest version of the range. -/
  high : ProtocolVersion
  /-- The ends are in order. -/
  ordered : low.number ≤ high.number
deriving DecidableEq, Repr

namespace VersionRange

/-- All versions that this library speaks. -/
def full : VersionRange := ⟨.oldest, .newest, by decide⟩

instance : Inhabited VersionRange := ⟨full⟩

/-- The text of a range whose ends are given. -/
def textOf (low high : ProtocolVersion) : String := low.text ++ "..=" ++ high.text

/-- The text of a range. -/
def text (r : VersionRange) : String := textOf r.low r.high

/-- The range that settings ask for: its ends in order and known to this library. -/
def ofSettings (low high : UInt8) : Except Failure VersionRange :=
  if ordered : low ≤ high then
    if low < ProtocolVersion.oldest.number ∨ high > ProtocolVersion.newest.number then
      .error <| .config <|
        "protocol versions must lie within " ++ full.text ++ ", got " ++ textOf ⟨low⟩ ⟨high⟩
    else .ok ⟨⟨low⟩, ⟨high⟩, ordered⟩
  else
    .error <| .config <|
      "protocol version min " ++ (ProtocolVersion.mk low).text ++ " is greater than max " ++
        (ProtocolVersion.mk high).text

/-- The range that a peer sends: its ends in order.  The peer may know versions that this library
does not know. -/
def ofPeer (low high : UInt8) : Except Failure VersionRange :=
  if ordered : low ≤ high then .ok ⟨⟨low⟩, ⟨high⟩, ordered⟩
  else .error (.framing s!"peer advertised inverted version range {low}..={high}")

/-- Whether a version lies in a range. -/
def contains (r : VersionRange) (v : ProtocolVersion) : Bool :=
  r.low.number ≤ v.number && v.number ≤ r.high.number

/-- The highest version of two ranges, if they have one in common. -/
def negotiate? (r s : VersionRange) : Option ProtocolVersion :=
  let floor := max r.low.number s.low.number
  let ceiling := min r.high.number s.high.number
  if floor ≤ ceiling then some ⟨ceiling⟩ else none

end VersionRange

end RemoteCall
