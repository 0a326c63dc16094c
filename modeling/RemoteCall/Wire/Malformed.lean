/-
# Payloads that cannot be read or written

The causes for which a payload is refused by the reader, and a value by the writer, each with
its text.
-/
import RemoteCall.Failure
import RemoteCall.Text.Utf8

namespace RemoteCall.Wire

/-- The deepest nesting of values, counting the outermost value as level zero. -/
def maxDepth : Nat := 256

/-- Why bytes are no payload. -/
inductive Malformed
  /-- The bytes end inside a number. -/
  | numberTruncated
  /-- A number has more than ten bytes. -/
  | numberTooLong
  /-- Fewer bytes are left than an element needs. -/
  | truncated (wanted offset : Nat)
  /-- A flag is neither zero nor one. -/
  | invalidFlag (byte : UInt8)
  /-- A count that more elements would need than bytes are left. -/
  | lengthBeyond (length remaining : Nat)
  /-- The bytes of a text are not UTF-8. -/
  | invalidText (fault : Option Text.Utf8Fault)
  /-- A byte that starts no value. -/
  | unknownTag (byte : UInt8)
  /-- A reference to an object that has not been seen. -/
  | unseenObject (number : Nat)
  /-- Values nested too deeply. -/
  | tooDeep
  /-- A time that the calendar does not reach. -/
  | timeOutOfRange (millis : Int)
deriving DecidableEq, Repr, Inhabited

/-- The text for values nested too deeply. -/
def tooDeepText : String := s!"value nesting exceeds {maxDepth} levels"

namespace Malformed

/-- The text of a cause. -/
def message : Malformed → String
  | numberTruncated => "VarInt: unexpected end of data"
  | numberTooLong => "VarInt overflow"
  | truncated wanted offset =>
    s!"unexpected end of payload: wanted {wanted} bytes at offset {offset}"
  | invalidFlag byte => s!"invalid flag byte {byte}"
  | lengthBeyond length remaining => s!"length {length} exceeds remaining {remaining} bytes"
  | invalidText fault => "invalid UTF-8 string: " ++ (fault.map Text.Utf8Fault.text).getD ""
  | unknownTag byte => "unknown value tag 0x" ++ String.ofList (Text.hexByte byte)
  | unseenObject number => s!"back-reference {number} to unseen object"
  | tooDeep => tooDeepText
  | timeOutOfRange millis => s!"received time {millis} out of range"

/-- The failure of an operation that met a malformed payload. -/
def toFailure (m : Malformed) : Failure := .marshalling m.message

end Malformed

/-- Why a value cannot be written. -/
inductive Unwritable
  /-- Values nested too deeply. -/
  | tooDeep
  /-- A reference to an object that the graph does not hold. -/
  | missingObject (id : Nat)
deriving DecidableEq, Repr, Inhabited

namespace Unwritable

/-- The text of a cause. -/
def message : Unwritable → String
  | tooDeep => tooDeepText
  | missingObject id => s!"object #{id} is not part of the graph"

/-- The failure of an operation that met a value that cannot be written. -/
def toFailure (u : Unwritable) : Failure := .marshalling u.message

end Unwritable

end RemoteCall.Wire
