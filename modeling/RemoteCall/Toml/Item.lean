/-
# Documents of tables

A document is a table of items under keys.  Tables come about in four ways: by a header, by a
header of one of their subtables, by a dotted key, and written out in one line.  What may be added
to a table later depends on the way.
-/
import RemoteCall.Named

namespace RemoteCall.Toml

/-- What stands under a key. -/
inductive Item
  /-- A text. -/
  | string (s : String)
  /-- A whole number of 64 bits. -/
  | integer (i : Int)
  /-- A truth value. -/
  | boolean (b : Bool)
  /-- A floating-point number. -/
  | float
  /-- A date, a time or both. -/
  | moment
  /-- An array. -/
  | array (items : List Item)
  /-- A table written out in one line; nothing can be added to it. -/
  | inlined (entries : List (String × Item))
  /-- A table.  It is implicit as long as no header of its own has been met, and dotted if a
  dotted key made it. -/
  | table (implicit dotted : Bool) (entries : List (String × Item))
  /-- The tables of a repeated header, the last one open for additions. -/
  | tables (elements : List (List (String × Item)))
deriving Repr, Inhabited

/-- The entries of a table. -/
abbrev Entries : Type := Named Item

/-- Changes the table at the end of a path; tables that are missing on the way are made.  The
change is told whether a dotted key made the table.  A dotted path may not lead through a table
that has a header of its own. -/
def descend (viaDots : Bool) (change : Bool → Entries → Option Entries) :
    List String → Bool → Entries → Option Entries
  | [], dotted, entries => change dotted entries
  | key :: path, _, entries =>
    match entries.get? key with
    | none => do
      let inner ← descend viaDots change path viaDots []
      pure (entries.put key (.table true viaDots inner))
    | some (.table implicit dotted inner) =>
      if viaDots && !implicit then none
      else do
        let inner ← descend viaDots change path dotted inner
        pure (entries.put key (.table implicit dotted inner))
    | some (.tables elements) =>
      match elements.getLast? with
      | none => none
      | some last => do
        let last ← descend viaDots change path false last
        pure (entries.put key (.tables (elements.dropLast ++ [last])))
    | some _ => none

/-- Adds an item under a dotted key.  The key must be new, and only dotted keys add to a table
that a dotted key made. -/
def addItem (path : List String) (key : String) (item : Item) :
    Bool → Entries → Option Entries :=
  descend true
    (fun dotted entries =>
      if dotted == path.isEmpty || (entries.get? key).isSome then none
      else some (entries ++ [(key, item)]))
    path

/-- Opens the table of a header below a table: a new one, or one that is only implicit so far. -/
def openTable (key : String) (entries : Entries) : Option Entries :=
  match entries.get? key with
  | none => some (entries ++ [(key, .table false false [])])
  | some (.table true false inner) => some (entries.put key (.table false false inner))
  | some _ => none

/-- Opens the next table of a repeated header. -/
def openElement (key : String) (entries : Entries) : Option Entries :=
  match entries.get? key with
  | none => some (entries ++ [(key, .tables [[]])])
  | some (.tables elements) => some (entries.put key (.tables (elements ++ [[]])))
  | some _ => none

/-- A line of a document that says something. -/
inductive Statement
  /-- A header. -/
  | header (path : List String) (key : String)
  /-- A repeated header. -/
  | element (path : List String) (key : String)
  /-- An item under a dotted key. -/
  | item (path : List String) (key : String) (item : Item)
deriving Repr, Inhabited

/-- The entries of a document after some statements, given the path of the last header. -/
def build : List Statement → List String → Entries → Option Entries
  | [], _, root => some root
  | .header path key :: rest, _, root => do
    let root ← descend false (fun _ => openTable key) path false root
    build rest (path ++ [key]) root
  | .element path key :: rest, _, root => do
    let root ← descend false (fun _ => openElement key) path false root
    build rest (path ++ [key]) root
  | .item path key item :: rest, current, root => do
    let root ← descend false (addItem path key item) current false root
    build rest current root

/-- The entries of a table that is written out in one line. -/
def inlineEntries (items : List (List String × String × Item)) : Option Entries :=
  items.foldlM (fun entries (path, key, item) => addItem path key item false entries) []

end RemoteCall.Toml
