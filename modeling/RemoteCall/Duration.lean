/-
# Lengths of time

Every wait in this library (a call timeout, a keep-alive interval, a drain window) is a length
of time in whole nanoseconds.  Settings are written in milliseconds; texts name the largest of
four units that fits and spell the rest as a decimal fraction without trailing zeros.

The time is told by a clock that comes to an end, so that not every wait has a time at which it
is over.
-/

namespace RemoteCall

/-- A length of time in whole nanoseconds. -/
structure Duration where
  /-- The number of nanoseconds. -/
  nanos : Nat
deriving DecidableEq, Repr, Inhabited

namespace Duration

/-- The length of `n` milliseconds. -/
def ofMillis (n : Nat) : Duration := ⟨n * 1000000⟩

/-- The length of `s` seconds and `n` nanoseconds. -/
def ofSeconds (s : Nat) (n : Nat := 0) : Duration := ⟨s * 1000000000 + n⟩

/-- The number of whole milliseconds. -/
def millis (d : Duration) : Nat := d.nanos / 1000000

/-- The number of whole milliseconds, wrapped to a 64-bit word. -/
def millisWord (d : Duration) : UInt64 := UInt64.ofNat d.millis

/-- The decimal digits of `n`, filled with zeros on the left to `places` digits. -/
def padded (places n : Nat) : List Char :=
  let digits := Nat.toDigits 10 n
  List.replicate (places - digits.length) '0' ++ digits

/-- The part of a decimal number after its whole part: a point and the digits of `n` out of
`places`, without the zeros at the end; nothing when all digits are zero. -/
def fraction (places n : Nat) : List Char :=
  match ((padded places n).reverse.dropWhile (· == '0')).reverse with
  | [] => []
  | digits => '.' :: digits

/-- The length of time in a unit of `10 ^ places` nanoseconds. -/
def inUnit (d : Duration) (places : Nat) (unit : String) : String :=
  let size := Nat.pow 10 places
  toString (d.nanos / size) ++ String.ofList (fraction places (d.nanos % size)) ++ unit

/-- The text of a length of time: seconds, milliseconds, microseconds or nanoseconds, whichever
is the largest unit that is not longer than it. -/
def text (d : Duration) : String :=
  if d.nanos ≥ 1000000000 then d.inUnit 9 "s"
  else if d.nanos ≥ 1000000 then d.inUnit 6 "ms"
  else if d.nanos ≥ 1000 then d.inUnit 3 "µs"
  else toString d.nanos ++ "ns"

/-! ## The clock -/

/-- The end of the clock, the first time that it cannot tell.  It counts whole seconds in a signed
word of 64 bits. -/
def clockEnd : Duration := ofSeconds 9223372036854775808

/-- The time that lies a while ahead, if a clock with a given end can tell it. -/
def later? (now wait horizon : Duration) : Option Duration :=
  if now.nanos + wait.nanos < horizon.nanos then some ⟨now.nanos + wait.nanos⟩ else none

theorem later?_of_lt {now wait horizon : Duration}
    (h : now.nanos + wait.nanos < horizon.nanos) :
    now.later? wait horizon = some ⟨now.nanos + wait.nanos⟩ :=
  if_pos h

theorem later?_eq_none_iff {now wait horizon : Duration} :
    now.later? wait horizon = none ↔ horizon.nanos ≤ now.nanos + wait.nanos := by
  simp [later?]

theorem nanos_of_later? {now wait horizon deadline : Duration}
    (h : now.later? wait horizon = some deadline) :
    deadline.nanos = now.nanos + wait.nanos := by
  rw [later?] at h
  split at h
  · cases h
    rfl
  · cases h

end Duration

end RemoteCall
