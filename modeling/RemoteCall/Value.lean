/-
# Values and object graphs

Arguments and results are values.  Scalars and collections are written out; an object is a
reference into a graph, so that two references to one object stay one object and an object may
refer back to itself.
-/
import RemoteCall.Named

namespace RemoteCall

/-- A value. -/
inductive Value
  /-- No value. -/
  | null
  /-- A truth value. -/
  | bool (b : Bool)
  /-- A whole number. -/
  | int (i : Int64)
  /-- A floating-point number, as its 64 bits. -/
  | float (bits : UInt64)
  /-- A text. -/
  | str (s : String)
  /-- A string of bytes. -/
  | bytes (b : List UInt8)
  /-- A constant of an enumeration. -/
  | enum (constant : String)
  /-- A list. -/
  | list (items : List Value)
  /-- A set, in the order in which it was filled. -/
  | set (items : List Value)
  /-- A map, in the order in which it was filled; a key may stand without a value. -/
  | map (entries : List (Value × Option Value))
  /-- An object of the graph that the value belongs to. -/
  | object (id : Nat)
deriving BEq, Repr, Inhabited

namespace Value

/-- Whether a value is no value. -/
def isNull : Value → Bool
  | null => true
  | _ => false

/-- The kind of a value, as named in messages. -/
def kind : Value → String
  | null => "null"
  | bool _ => "bool"
  | int _ => "int"
  | float _ => "float"
  | str _ => "string"
  | bytes _ => "bytes"
  | enum _ => "enum"
  | list _ => "list"
  | set _ => "set"
  | map _ => "map"
  | object _ => "object"

/-- The number, if the value is a whole number. -/
def int? : Value → Option Int64
  | int i => some i
  | _ => none

/-- The text, if the value is a text. -/
def str? : Value → Option String
  | str s => some s
  | _ => none

/-- The constant, if the value is one. -/
def enum? : Value → Option String
  | enum constant => some constant
  | _ => none

/-- The object, if the value refers to one. -/
def object? : Value → Option Nat
  | object id => some id
  | _ => none

end Value

/-- An object: the name of its type and its fields. -/
structure Node where
  /-- The name of the type. -/
  typeName : String
  /-- The fields, in order. -/
  fields : Named Value := []
deriving BEq, Repr, Inhabited

/-- The object with one more field, or with another value in a field that it has. -/
def Node.set (o : Node) (name : String) (v : Value) : Node :=
  { o with fields := o.fields.put name v }

/-- The objects that values refer to, each known by its position. -/
structure Graph where
  /-- The objects, in the order in which they were added. -/
  nodes : Array Node := #[]
deriving BEq, Repr, Inhabited

namespace Graph

/-- The graph without objects. -/
def empty : Graph := {}

/-- The number of objects. -/
def size (g : Graph) : Nat := g.nodes.size

/-- The object of a position. -/
def get? (g : Graph) (id : Nat) : Option Node := g.nodes[id]?

/-- Adds an object; its position is the size that the graph had. -/
def insert (g : Graph) (o : Node) : Graph × Nat := (⟨g.nodes.push o⟩, g.size)

/-- Changes the object of a position, if there is one. -/
def modify (g : Graph) (id : Nat) (f : Node → Node) : Graph := ⟨g.nodes.modify id f⟩

/-- The object that a field of an object refers to. -/
def follow? (g : Graph) (id : Nat) (field : String) : Option Nat := do
  let o ← g.get? id
  let v ← o.fields.get? field
  v.object?

theorem size_modify (g : Graph) (id : Nat) (f : Node → Node) :
    (g.modify id f).size = g.size := by
  simp [modify, size]

theorem get?_modify_self (g : Graph) (id : Nat) (f : Node → Node) :
    (g.modify id f).get? id = (g.get? id).map f := by
  simp [modify, get?, Array.getElem?_modify]

theorem get?_modify_of_ne (g : Graph) {id i : Nat} (h : i ≠ id) (f : Node → Node) :
    (g.modify id f).get? i = g.get? i := by
  simp [modify, get?, Array.getElem?_modify, Ne.symm h]

/-- Graphs of one size have objects at the same positions. -/
theorem exists_get?_of_size_eq {g h : Graph} (hsize : h.size = g.size) {id : Nat} {o : Node}
    (ho : g.get? id = some o) : ∃ o', h.get? id = some o' := by
  obtain ⟨hid, -⟩ := Array.getElem?_eq_some_iff.mp ho
  have hid' : id < h.nodes.size := by
    rw [size, size] at hsize
    omega
  exact ⟨h.nodes[id], Array.getElem?_eq_getElem hid'⟩

end Graph

/-- The arguments of a call, by name, over one graph. -/
structure Arguments where
  /-- The objects that the arguments refer to. -/
  graph : Graph := {}
  /-- The arguments, in order. -/
  values : Named Value := []
deriving BEq, Repr, Inhabited

/-- The arguments with one more, or with another value for one of them. -/
def Arguments.set (a : Arguments) (name : String) (v : Value) : Arguments :=
  { a with values := a.values.put name v }

/-- The result of a call, over its graph. -/
structure Returned where
  /-- The objects that the result refers to. -/
  graph : Graph := {}
  /-- The result. -/
  value : Value
deriving BEq, Repr, Inhabited

end RemoteCall
