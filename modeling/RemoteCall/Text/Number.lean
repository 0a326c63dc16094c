/-
# Numbers in texts

Digits in a base, read from the front of a text or as a whole text.
-/

namespace RemoteCall.Text

/-- The value of a digit in a base of at most sixteen. -/
def digit? (base : Nat) (c : Char) : Option Nat :=
  let value :=
    if '0' ≤ c ∧ c ≤ '9' then c.toNat - '0'.toNat
    else if 'a' ≤ c ∧ c ≤ 'f' then c.toNat - 'a'.toNat + 10
    else if 'A' ≤ c ∧ c ≤ 'F' then c.toNat - 'A'.toNat + 10
    else base
  if value < base then some value else none

/-- Whether a character is a digit in a base. -/
def isDigit (base : Nat) (c : Char) : Bool := (digit? base c).isSome

/-- The number that digits in a base stand for; other characters count as zero. -/
def ofDigits (base : Nat) (digits : List Char) : Nat :=
  digits.foldl (fun n c => n * base + (digit? base c).getD 0) 0

/-- The digits at the front of a text, and what follows them. -/
def spanDigits (base : Nat) (l : List Char) : List Char × List Char :=
  (l.takeWhile (isDigit base), l.dropWhile (isDigit base))

/-- The number below a limit that a whole text stands for: decimal digits, after a plus sign or
not. -/
def natBelow? (limit : Nat) (s : String) : Option Nat :=
  let digits :=
    match s.toList with
    | '+' :: rest => rest
    | l => l
  let n := ofDigits 10 digits
  if digits.isEmpty || !digits.all (isDigit 10) || limit ≤ n then none else some n

end RemoteCall.Text
