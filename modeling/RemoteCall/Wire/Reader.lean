/-
# Reading a payload from front to back

A reader takes elements off the front of a payload and keeps count of the bytes taken.  A count
of elements is compared with the bytes that are left before any element is read, because every
element takes at least one byte; a trusting cursor leaves that comparison out.
-/
import RemoteCall.Wire.Varint

namespace RemoteCall.Wire

/-- A payload that is being read. -/
structure Cursor where
  /-- The number of bytes taken. -/
  offset : Nat
  /-- The bytes that are left. -/
  rest : List UInt8
  /-- Whether counts are believed without a look at the bytes that are left. -/
  trusting : Bool := false
deriving DecidableEq, Repr, Inhabited

/-- The cursor at the front of a payload. -/
def Cursor.start (bytes : List UInt8) : Cursor := { offset := 0, rest := bytes }

/-- A step of reading: an element and the cursor behind it, or the cause for which the payload is
refused. -/
abbrev Reader (α : Type) : Type := StateT Cursor (Except Malformed) α

/-- The first `n` elements of a list and the rest of it; nothing if there are fewer. -/
def splitAt? {α : Type} : Nat → List α → Option (List α × List α)
  | 0, l => some ([], l)
  | _ + 1, [] => none
  | n + 1, a :: l => (splitAt? n l).map fun (front, rest) => (a :: front, rest)

theorem splitAt?_eq {α : Type} (n : Nat) (l : List α) :
    splitAt? n l = if n ≤ l.length then some (l.take n, l.drop n) else none := by
  induction n generalizing l with
  | zero => simp [splitAt?]
  | succ n ih =>
    cases l with
    | nil => simp [splitAt?]
    | cons a l => by_cases h : n ≤ l.length <;> simp [splitAt?, ih, h]

theorem splitAt?_eq_some {α : Type} {n : Nat} {l front rest : List α} :
    splitAt? n l = some (front, rest) ↔ l = front ++ rest ∧ front.length = n := by
  rw [splitAt?_eq]
  constructor
  · intro h
    split at h
    · cases h
      simp_all
    · cases h
  · intro ⟨hl, hn⟩
    simp [hl, ← hn]

/-- The width is a hypothesis of its own, so that the lemma also applies where the width is a
constant. -/
theorem splitAt?_append {α : Type} {front rest : List α} {n : Nat} (h : front.length = n) :
    splitAt? n (front ++ rest) = some (front, rest) :=
  splitAt?_eq_some.mpr ⟨rfl, h⟩

namespace Reader

/-- Takes `n` bytes. -/
def take (n : Nat) : Reader (List UInt8) := fun c =>
  match splitAt? n c.rest with
  | some (front, rest) => .ok (front, { c with offset := c.offset + n, rest := rest })
  | none => .error (.truncated n c.offset)

/-- Takes one byte. -/
def byte : Reader UInt8 := fun c =>
  match c.rest with
  | b :: rest => .ok (b, { c with offset := c.offset + 1, rest := rest })
  | [] => .error (.truncated 1 c.offset)

/-- Takes a flag. -/
def flag : Reader Bool := do
  let b ← byte
  if b = 0 then pure false
  else if b = 1 then pure true
  else throw (.invalidFlag b)

/-- Takes a number. -/
def number : Reader UInt64 := fun c =>
  match Varint.decode c.rest with
  | .ok (v, used) => .ok (v, { c with offset := c.offset + used, rest := c.rest.drop used })
  | .error e => .error e

/-- Takes a count of elements. -/
def count : Reader Nat := do
  let n ← number
  let c ← get
  if c.trusting || n.toNat ≤ c.rest.length then pure n.toNat
  else throw (.lengthBeyond n.toNat c.rest.length)

/-- Takes a string of bytes. -/
def bytes : Reader (List UInt8) := do take (← count)

/-- Takes a text. -/
def text : Reader String := do
  let raw ← bytes
  match Text.ofBytes? raw with
  | some s => pure s
  | none => throw (.invalidText (Text.utf8Fault? raw))

/-- Takes an element that a flag announces. -/
def optional {α : Type} (element : Reader α) : Reader (Option α) := do
  if ← flag then pure (some (← element)) else pure none

/-- Takes `n` elements. -/
def times {α : Type} (element : Reader α) : Nat → Reader (List α)
  | 0 => pure []
  | n + 1 => do
    let a ← element
    let rest ← times element n
    pure (a :: rest)

/-- Takes a count and that many elements. -/
def counted {α : Type} (element : Reader α) : Reader (List α) := do
  times element (← count)

/-- Reads a payload from its front; what follows the element is left unread. -/
def run {α : Type} (element : Reader α) (payload : List UInt8) : Except Malformed α := do
  let (a, _) ← StateT.run element (Cursor.start payload)
  pure a

end Reader

/-! ## Writing the same elements -/

/-- The bytes of a count. -/
def putCount (n : Nat) : List UInt8 := Varint.encode (UInt64.ofNat n)

/-- The bytes of a flag. -/
def putFlag (b : Bool) : List UInt8 := [if b then 1 else 0]

/-- The bytes of a string of bytes: its length and itself. -/
def putBytes (b : List UInt8) : List UInt8 := putCount b.length ++ b

/-- The bytes of a text. -/
def putText (s : String) : List UInt8 := putBytes (Text.toBytes s)

/-- The bytes of an element that may be absent. -/
def putOptional {α : Type} (put : α → List UInt8) : Option α → List UInt8
  | some a => putFlag true ++ put a
  | none => putFlag false

/-- The bytes of a list of elements: their number and each of them. -/
def putCounted {α : Type} (put : α → List UInt8) (l : List α) : List UInt8 :=
  putCount l.length ++ l.flatMap put

end RemoteCall.Wire
