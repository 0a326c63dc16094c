/-
# Numbers of variable length

A number is sent in groups of seven bits, the lowest group first; the top bit of a byte says that
another byte follows.  Signed numbers are folded onto the naturals first, so that numbers near
zero of either sign stay short.  All arithmetic is on natural numbers and integers; words appear
at the edges only.
-/
import RemoteCall.Wire.Malformed

namespace RemoteCall.Wire.Varint

/-! ## Writing -/

/-- The bytes of a natural number. -/
def encodeNat (n : Nat) : List UInt8 :=
  if n < 128 then [UInt8.ofNat n]
  else UInt8.ofNat (n % 128 + 128) :: encodeNat (n / 128)

/-- The bytes of a word. -/
def encode (v : UInt64) : List UInt8 := encodeNat v.toNat

/-- The number of bytes of a word, from its number of bits. -/
def size (v : UInt64) : Nat :=
  if v = 0 then 1 else (Nat.log2 v.toNat + 1 + 6) / 7

/-! ## Reading -/

/-- Reads a number of which `used` bytes have been read: they stand for `sum`, and the next byte
counts `2 ^ shift`.  The tenth byte is the last one allowed, and only its lowest bit fits into
the word. -/
def decodeFrom (shift sum used : Nat) : List UInt8 → Except Malformed (UInt64 × Nat)
  | [] => .error .numberTruncated
  | b :: rest =>
    let sum := sum + (b.toNat % 128) <<< shift
    if b.toNat < 128 then .ok (UInt64.ofNat sum, used + 1)
    else if shift + 7 ≥ 64 then .error .numberTooLong
    else decodeFrom (shift + 7) sum (used + 1) rest

/-- The number at the front of some bytes, and how many bytes it takes. -/
def decode (bytes : List UInt8) : Except Malformed (UInt64 × Nat) := decodeFrom 0 0 0 bytes

/-! ## Signed numbers -/

/-- Folds the integers onto the naturals: zero, minus one, one, minus two, … -/
def fold (i : Int64) : UInt64 :=
  UInt64.ofNat (if i.toInt < 0 then -2 * i.toInt - 1 else 2 * i.toInt).toNat

/-- Unfolds a natural number to the integer that it stands for. -/
def unfold (v : UInt64) : Int64 :=
  Int64.ofInt (if v.toNat % 2 = 0 then (v.toNat / 2 : Nat) else -((v.toNat / 2 + 1 : Nat) : Int))

/-- The bytes of a signed number. -/
def encodeSigned (i : Int64) : List UInt8 := encode (fold i)

end RemoteCall.Wire.Varint
