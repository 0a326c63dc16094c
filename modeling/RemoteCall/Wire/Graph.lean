/-
# Values on the wire

A value is written as a tag and what the tag calls for.  An object is written out where it is
first met and gets the next number; later references send that number only.  The reader numbers
objects in the same order and registers an object before its fields are read, so that a field
may refer to the object that it belongs to.  Both sides refuse values that are nested more
deeply than `maxDepth`.
-/
import RemoteCall.Value
import RemoteCall.Wire.BigEndian
import RemoteCall.Wire.Reader

namespace RemoteCall.Wire

/-- The tag that a written value starts with. -/
inductive ValueTag
  | null | false | true | int | float | str | bytes | enum | list | set | map | object | reference
deriving DecidableEq, Repr, Inhabited

namespace ValueTag

/-- The byte of a tag. -/
def byte : ValueTag → UInt8
  | null => 0x00
  | false => 0x01
  | true => 0x02
  | int => 0x03
  | float => 0x04
  | str => 0x05
  | bytes => 0x06
  | enum => 0x07
  | list => 0x08
  | set => 0x09
  | map => 0x0A
  | object => 0x0B
  | reference => 0x0C

/-- All tags. -/
def all : List ValueTag :=
  [null, false, true, int, float, str, bytes, enum, list, set, map, object, reference]

/-- The tag of a byte. -/
def ofByte? (b : UInt8) : Option ValueTag := all.find? fun t => t.byte == b

theorem ofByte?_byte (t : ValueTag) : ofByte? t.byte = some t := by
  cases t <;> decide

theorem byte_of_ofByte? {b : UInt8} {t : ValueTag} (h : ofByte? b = some t) : t.byte = b := by
  simpa using List.find?_some h

end ValueTag

/-! ## Writing -/

/-- A step of writing: the bytes, and the objects written out so far in the order of their
numbers. -/
abbrev Writer : Type := StateT (List Nat) (Except Unwritable) (List UInt8)

namespace Writer

/-- Writes elements one behind the other. -/
def each {α : Type} (write : α → Writer) : List α → Writer
  | [] => pure []
  | a :: rest => do
    let front ← write a
    let back ← each write rest
    pure (front ++ back)

/-- Writes the number of some elements and the elements. -/
def counted {α : Type} (write : α → Writer) (l : List α) : Writer := do
  let back ← each write l
  pure (putCount l.length ++ back)

/-- Writes a map entry, given how a value is written: the key, a flag, and the value if there is
one. -/
def entry (write : Value → Writer) : Value × Option Value → Writer
  | (key, none) => do
    let k ← write key
    pure (k ++ putFlag false)
  | (key, some v) => do
    let k ← write key
    let b ← write v
    pure (k ++ putFlag true ++ b)

/-- Writes a name and the value under it. -/
def named (write : Value → Writer) (f : String × Value) : Writer := do
  let b ← write f.2
  pure (putText f.1 ++ b)

/-- Writes a reference to an object, given how the values of its fields are written: the number
of an object that has been written out, or else the object itself under the next number. -/
def object (g : Graph) (write : Value → Writer) (id : Nat) : Writer := fun seen =>
  match seen.idxOf? id with
  | some number => .ok (ValueTag.reference.byte :: putCount number, seen)
  | none =>
    match g.get? id with
    | none => .error (.missingObject id)
    | some o => do
      let (back, seen) ← StateT.run (counted (named write) o.fields) (seen ++ [id])
      .ok (ValueTag.object.byte :: putText o.typeName ++ back, seen)

/-- Writes a value over a graph, when `levels` more levels of nesting are allowed. -/
def value (g : Graph) : Nat → Value → Writer
  | 0, _ => throw .tooDeep
  | levels + 1, v =>
    match v with
    | .null => pure [ValueTag.null.byte]
    | .bool false => pure [ValueTag.false.byte]
    | .bool true => pure [ValueTag.true.byte]
    | .int i => pure (ValueTag.int.byte :: Varint.encodeSigned i)
    | .float bits => pure (ValueTag.float.byte :: bigEndian 8 bits.toNat)
    | .str s => pure (ValueTag.str.byte :: putText s)
    | .bytes b => pure (ValueTag.bytes.byte :: putBytes b)
    | .enum constant => pure (ValueTag.enum.byte :: putText constant)
    | .list items => do
      let back ← counted (value g levels) items
      pure (ValueTag.list.byte :: back)
    | .set items => do
      let back ← counted (value g levels) items
      pure (ValueTag.set.byte :: back)
    | .map entries => do
      let back ← counted (entry (value g levels)) entries
      pure (ValueTag.map.byte :: back)
    | .object id => object g (value g levels) id

/-- Writes a value at the outermost level. -/
def outermost (g : Graph) (v : Value) : Writer := value g (maxDepth + 1) v

/-- The bytes that a writer gives when nothing has been written before. -/
def run (w : Writer) : Except Unwritable (List UInt8) := do
  let (bytes, _) ← StateT.run w []
  pure bytes

end Writer

/-! ## Reading -/

/-- A step of reading that adds to the graph of the objects read so far. -/
abbrev GraphReader (α : Type) : Type := StateT Graph (StateT Cursor (Except Malformed)) α

namespace GraphReader

/-- Takes `n` elements. -/
def times {α : Type} (element : GraphReader α) : Nat → GraphReader (List α)
  | 0 => pure []
  | n + 1 => do
    let a ← element
    let rest ← times element n
    pure (a :: rest)

/-- Takes a count and that many elements. -/
def counted {α : Type} (element : GraphReader α) : GraphReader (List α) := do
  times element (← Reader.count)

/-- Takes a map entry, given how a value is taken. -/
def entry (value : GraphReader Value) : GraphReader (Value × Option Value) := do
  let key ← value
  if ← Reader.flag then
    let v ← value
    pure (key, some v)
  else pure (key, none)

/-- Takes a name and the value under it. -/
def named (value : GraphReader Value) : GraphReader (String × Value) := do
  let name ← Reader.text
  let v ← value
  pure (name, v)

/-- Takes an object, given how the values of its fields are taken.  It is added to the graph
before its fields are read. -/
def object (value : GraphReader Value) : GraphReader Value := do
  let typeName ← Reader.text
  let (g, id) := (← get).insert { typeName }
  set g
  let fields ← counted (named value)
  modify fun g => g.modify id fun o => { o with fields := fields }
  pure (.object id)

/-- Takes the number of an object that has been read. -/
def reference : GraphReader Value := do
  let n ← Reader.number
  let g ← get
  if n.toNat < g.size then pure (.object n.toNat)
  else throw (.unseenObject n.toNat)

/-- Takes what follows a tag, given how a value is taken. -/
def content (value : GraphReader Value) : ValueTag → GraphReader Value
  | .null => pure .null
  | .false => pure (.bool false)
  | .true => pure (.bool true)
  | .int => do pure (.int (Varint.unfold (← Reader.number)))
  | .float => do pure (.float (UInt64.ofNat (ofBigEndian (← Reader.take 8))))
  | .str => do pure (.str (← Reader.text))
  | .bytes => do pure (.bytes (← Reader.bytes))
  | .enum => do pure (.enum (← Reader.text))
  | .list => do pure (.list (← counted value))
  | .set => do pure (.set (← counted value))
  | .map => do pure (.map (← counted (entry value)))
  | .object => object value
  | .reference => reference

/-- Takes a value, when `levels` more levels of nesting are allowed. -/
def value : Nat → GraphReader Value
  | 0 => throw .tooDeep
  | levels + 1 => do
    let b ← Reader.byte
    match ValueTag.ofByte? b with
    | none => throw (.unknownTag b)
    | some t => content (value levels) t

/-- Takes a value at the outermost level. -/
def outermost : GraphReader Value := value (maxDepth + 1)

end GraphReader

end RemoteCall.Wire
