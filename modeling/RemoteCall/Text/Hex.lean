/-
# Bytes in base sixteen

Two digits stand for each byte, in lower case when written and in either case when read.
-/
import RemoteCall.Text.Number

namespace RemoteCall.Text

/-- The digits of a number in base sixteen, in lower case. -/
def hexDigits (n : Nat) : List Char := Nat.toDigits 16 n

/-- The two digits of a byte. -/
def hexByte (b : UInt8) : List Char :=
  [Nat.digitChar (b.toNat / 16), Nat.digitChar (b.toNat % 16)]

/-- The digits of some bytes. -/
def hexOfBytes (bytes : List UInt8) : String := String.ofList (bytes.flatMap hexByte)

/-- The bytes that some digits stand for, two by two. -/
def bytesOfHexChars? : List Char → Option (List UInt8)
  | [] => some []
  | [_] => none
  | high :: low :: rest => do
    let h ← digit? 16 high
    let l ← digit? 16 low
    let bytes ← bytesOfHexChars? rest
    pure (UInt8.ofNat (16 * h + l) :: bytes)

/-- The bytes that a text of digits stands for. -/
def bytesOfHex? (s : String) : Option (List UInt8) := bytesOfHexChars? s.toList

end RemoteCall.Text
