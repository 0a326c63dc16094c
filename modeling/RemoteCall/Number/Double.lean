/-
# The double nearest to a whole number

A whole number given where a floating-point number is declared is rounded to 53 significant
bits, a half going to the even neighbour.  The result is given as the 64 bits of the double, so
that the rule is plain arithmetic.
-/

namespace RemoteCall.Number

/-- `m / 2 ^ shift` rounded to a whole number, a half going to the even neighbour. -/
def shiftRounded (m shift : Nat) : Nat :=
  let quotient := m / Nat.pow 2 shift
  let twice := 2 * (m % Nat.pow 2 shift)
  if twice > Nat.pow 2 shift ∨ (twice = Nat.pow 2 shift ∧ quotient % 2 = 1) then quotient + 1
  else quotient

/-- The bits of the double nearest to a natural number.  A mantissa that rounds up to the next
power of two carries into the exponent. -/
def doubleOfNat (m : Nat) : Nat :=
  if m = 0 then 0
  else
    let exponent := Nat.log2 m
    let mantissa :=
      if exponent ≤ 52 then m * Nat.pow 2 (52 - exponent) else shiftRounded m (exponent - 52)
    (exponent + 1023) * Nat.pow 2 52 + (mantissa - Nat.pow 2 52)

/-- The bits of the double nearest to an integer. -/
def doubleOfInt (i : Int) : UInt64 :=
  UInt64.ofNat (if i < 0 then Nat.pow 2 63 + doubleOfNat i.natAbs else doubleOfNat i.natAbs)

end RemoteCall.Number
