/-
# Lists of named things

Fields, arguments and attributes are kept in the order in which they came, each under a name.
A look-up finds the first entry of a name; names may repeat when they come from a peer.
-/

namespace RemoteCall

/-- A list of things under names, in order. -/
abbrev Named (α : Type) : Type := List (String × α)

namespace Named

variable {α : Type}

/-- The first thing under a name. -/
def get? (l : Named α) (name : String) : Option α :=
  match l with
  | [] => none
  | (n, a) :: rest => if n = name then some a else get? rest name

/-- Puts a thing in the place of the first one under its name, or at the end. -/
def put (l : Named α) (name : String) (a : α) : Named α :=
  match l with
  | [] => [(name, a)]
  | (n, b) :: rest => if n = name then (n, a) :: rest else (n, b) :: put rest name a

/-- Takes the first thing under a name out of the list; the last entry of the list moves into the
place that falls free. -/
def swapOut? (l : Named α) (name : String) : Option (α × Named α) :=
  match l with
  | [] => none
  | (n, a) :: rest =>
    if n = name then
      match rest.getLast? with
      | none => some (a, [])
      | some last => some (a, last :: rest.dropLast)
    else (swapOut? rest name).map fun (found, left) => (found, (n, a) :: left)

theorem swapOut?_fst (l : Named α) (name : String) :
    (l.swapOut? name).map Prod.fst = l.get? name := by
  induction l with
  | nil => rfl
  | cons e rest ih =>
    obtain ⟨n, a⟩ := e
    by_cases h : n = name
    · simp only [swapOut?, get?, h, if_true]
      cases rest.getLast? <;> rfl
    · simp only [swapOut?, get?, h, if_false, Option.map_map]
      rw [← ih]
      rfl

/-- The names, in order. -/
def names (l : Named α) : List String := l.map Prod.fst

end Named

end RemoteCall
