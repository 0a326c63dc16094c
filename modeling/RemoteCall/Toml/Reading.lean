/-
# Reading a text from front to back

Small readers, each of which takes something off the front of a text or takes nothing.
-/
import RemoteCall.Text.Number

namespace RemoteCall.Toml

/-- A reader of the front of a text. -/
abbrev Reading (α : Type) : Type := StateT (List Char) Option α

namespace Reading

/-- Takes a character of a class. -/
def satisfying (p : Char → Bool) : Reading Char := fun l =>
  match l with
  | c :: rest => if p c then some (c, rest) else none
  | [] => none

/-- Takes given characters. -/
def exactly : List Char → Reading Unit
  | [] => pure ()
  | c :: rest => do
    let _ ← satisfying (· == c)
    exactly rest

/-- Takes all characters of a class. -/
def span (p : Char → Bool) : Reading (List Char) := fun l =>
  some (l.takeWhile p, l.dropWhile p)

/-- Takes one or more characters of a class. -/
def span1 (p : Char → Bool) : Reading (List Char) := do
  let c ← satisfying p
  let rest ← span p
  pure (c :: rest)

/-- Takes exactly `n` characters of a class. -/
def count (p : Char → Bool) : Nat → Reading (List Char)
  | 0 => pure []
  | n + 1 => do
    let c ← satisfying p
    let rest ← count p n
    pure (c :: rest)

/-- What a reader takes again and again from the front of a text, and what is left. -/
def manyFrom {α : Type} (r : Reading α) (l : List Char) : List α × List Char :=
  match r.run l with
  | none => ([], l)
  | some (a, rest) =>
    if rest.length < l.length then
      let (more, rest) := manyFrom r rest
      (a :: more, rest)
    else ([a], rest)
termination_by l.length

/-- Takes what a reader takes, again and again. -/
def many {α : Type} (r : Reading α) : Reading (List α) := fun l => some (manyFrom r l)

/-- Takes nothing, at the end of a text only. -/
def ending : Reading Unit := fun l => if l.isEmpty then some ((), []) else none

/-- Takes nothing, unless given characters follow. -/
def notBefore (cs : List Char) : Reading Unit := fun l =>
  if cs.isPrefixOf l then none else some ((), l)

/-- The reader of a value that may be missing. -/
def ofOption {α : Type} : Option α → Reading α
  | some a => pure a
  | none => failure

/-- What a reader takes, if that is the whole text. -/
def whole? {α : Type} (r : Reading α) (l : List Char) : Option α :=
  match r.run l with
  | some (a, []) => some a
  | _ => none

end Reading

end RemoteCall.Toml
