/-
# Fitting read values to local declarations

A value that was read carries the types of its writer.  Projection fits it to the declarations
of the reader: fields and arguments are matched by name, names that are not declared are
dropped, declared names that were not sent become null, and an unknown constant becomes the
sentinel of its enumeration if there is one.  Objects are changed in place in their graph, and
each object once, at the first reference that leads to it.
-/
import RemoteCall.Value
import RemoteCall.Schema
import RemoteCall.Number.Double

namespace RemoteCall

/-- How strictly values are read. -/
structure DecodeOptions where
  /-- Whether an unknown constant is refused even where its enumeration has a sentinel. -/
  strictEnums : Bool := false
deriving DecidableEq, Repr, Inhabited

namespace Projection

/-- Why a value does not fit. -/
inductive Misfit
  /-- A mandatory argument was not sent. -/
  | missingArgument (name : String)
  /-- A mandatory field was not sent. -/
  | missingField (path : String)
  /-- A value is of another kind than declared. -/
  | wrongKind (path : String) (tag : TypeTag) (found : String)
  /-- A constant is not known and nothing may stand for it. -/
  | unknownConstant (enumName constant : String)
  /-- A reference leads out of the graph. -/
  | missingObject (id : Nat)
deriving DecidableEq, Repr, Inhabited

/-- The failure of an operation that met a misfit. -/
def Misfit.toFailure : Misfit → Failure
  | missingArgument name => .validation s!"mandatory argument '{name}' is missing"
  | missingField path => .validation s!"mandatory field '{path}' is missing"
  | wrongKind path tag found => .validation s!"'{path}': expected {tag.text}, found {found}"
  | unknownConstant enumName constant => .enumDeserialisation enumName constant
  | missingObject id => .marshalling s!"object #{id} missing from decoded graph"

/-- The state of a projection: the graph as far as it has been fitted, and the objects that have
been met. -/
structure Progress where
  /-- The graph. -/
  graph : Graph
  /-- The objects met so far, the latest first. -/
  visited : List Nat := []
deriving BEq, Repr, Inhabited

/-- A step of a projection. -/
abbrev Step (α : Type) : Type := StateT Progress (Except Misfit) α

/-- Fits a constant to its enumeration.  An enumeration without a declaration takes any
constant. -/
def constant (registry : Registry) (options : DecodeOptions) (enumName name : String) :
    Except Misfit String :=
  match registry.enum? enumName with
  | none => .ok name
  | some schema =>
    if schema.contains name then .ok name
    else
      match schema.sentinel, options.strictEnums with
      | some sentinel, false => .ok sentinel
      | _, _ => .error (.unknownConstant enumName name)

mutual

/-- Fits a value to a type, given how an object is fitted to the type that its reference
declares.  `path` names the place of the value in messages. -/
def value (registry : Registry) (options : DecodeOptions)
    (object : Nat → Option String → Step Unit) (path : String) :
    TypeTag → Value → Step Value
  | _, .null => pure .null
  | .any, .object id => do
    object id none
    pure (.object id)
  | .any, v => pure v
  | .bool, .bool b => pure (.bool b)
  | .int, .int i => pure (.int i)
  | .float, .float bits => pure (.float bits)
  | .float, .int i => pure (.float (Number.doubleOfInt i.toInt))
  | .str, .str s => pure (.str s)
  | .bytes, .bytes b => pure (.bytes b)
  | .enum enumName, .enum name => do
    let name ← StateT.lift (constant registry options enumName name)
    pure (.enum name)
  | .list element, .list vs => do
    let vs ← items registry options object path element vs
    pure (.list vs)
  | .set element, .set vs => do
    let vs ← items registry options object path element vs
    pure (.set vs)
  | .map keyTag valueTag, .map es => do
    let es ← entries registry options object path keyTag valueTag es
    pure (.map es)
  | .object declared, .object id => do
    object id (some declared)
    pure (.object id)
  | tag, v => throw (.wrongKind path tag v.kind)
  termination_by structural _ v => v

/-- Fits the items of a list or a set, in order. -/
def items (registry : Registry) (options : DecodeOptions)
    (object : Nat → Option String → Step Unit) (path : String) (element : TypeTag) :
    List Value → Step (List Value)
  | [] => pure []
  | v :: rest => do
    let v ← value registry options object path element v
    let rest ← items registry options object path element rest
    pure (v :: rest)
  termination_by structural vs => vs

/-- Fits the entries of a map, in order, each key before its value. -/
def entries (registry : Registry) (options : DecodeOptions)
    (object : Nat → Option String → Step Unit) (path : String) (keyTag valueTag : TypeTag) :
    List (Value × Option Value) → Step (List (Value × Option Value))
  | [] => pure []
  | (k, none) :: rest => do
    let k ← value registry options object path keyTag k
    let rest ← entries registry options object path keyTag valueTag rest
    pure ((k, none) :: rest)
  | (k, some v) :: rest => do
    let k ← value registry options object path keyTag k
    let v ← value registry options object path valueTag v
    let rest ← entries registry options object path keyTag valueTag rest
    pure ((k, some v) :: rest)
  termination_by structural es => es

end

/-- Fits what was found for a declared place.  Null counts as not sent. -/
def place (fit : FieldDecl → Value → Step Value) (missing : FieldDecl → Misfit)
    (d : FieldDecl) (found : Value) : Step Value :=
  if found.isNull then
    if d.mandatory then throw (missing d) else pure .null
  else fit d found

/-- Fills declared places, in order, from what was sent.  Each place takes the first thing sent
under its name out of the list. -/
def fill (fit : FieldDecl → Value → Step Value) (missing : FieldDecl → Misfit) :
    List FieldDecl → Named Value → Step (Named Value)
  | [], _ => pure []
  | d :: ds, sent => do
    let (found, left) := (sent.swapOut? d.name).getD (.null, sent)
    let v ← place fit missing d found
    let rest ← fill fit missing ds left
    pure ((d.name, v) :: rest)

/-- Fits every field of an object without a declaration, in order. -/
def keep (fit : String → Value → Step Value) : Named Value → Step (Named Value)
  | [] => pure []
  | (name, v) :: rest => do
    let v ← fit name v
    let rest ← keep fit rest
    pure ((name, v) :: rest)

/-- The declaration that an object is fitted to: that of its own type if there is one, else that
of the type which the reference declares. -/
def schemaFor? (registry : Registry) (typeName : String) (declared : Option String) :
    Option TypeSchema :=
  match registry.type? typeName with
  | some schema => some schema
  | none => declared.bind registry.type?

/-- The place of a field in messages. -/
def fieldPath (schema : TypeSchema) (d : FieldDecl) : String := schema.name ++ "." ++ d.name

/-- Fits the fields of an object to the declaration that was found for it; without one it keeps
all its fields.  `fit` fits a value to a type at a place. -/
def node (fit : String → TypeTag → Value → Step Value) (o : Node) :
    Option TypeSchema → Step Node
  | none => do
    let fields ← keep (fun name v => fit name .any v) o.fields
    pure { o with fields }
  | some schema => do
    let fields ← fill (fun d v => fit (fieldPath schema d) d.tag v)
      (fun d => .missingField (fieldPath schema d)) schema.fields o.fields
    pure { typeName := schema.name, fields }

/-- Fits an object of the graph in its place there. -/
def rewrite (registry : Registry) (fit : String → TypeTag → Value → Step Value) (id : Nat)
    (declared : Option String) : Step Unit := do
  let progress ← get
  match progress.graph.get? id with
  | none => throw (.missingObject id)
  | some o =>
    let o ← node fit o (schemaFor? registry o.typeName declared)
    modify fun p => { p with graph := p.graph.modify id fun _ => o }

/-- Fits an object at the first reference that leads to it.  An object that has been met is left
alone, also while it is still being fitted. -/
def meet (first : Nat → Option String → Step Unit) (id : Nat) (declared : Option String) :
    Step Unit := do
  let progress ← get
  if progress.visited.contains id then pure ()
  else do
    set { progress with visited := id :: progress.visited }
    first id declared

/-- Fits an object, when at most `unmet` objects of the graph have not been met.  When all objects
have been met, a reference to another one leads out of the graph. -/
def object (registry : Registry) (options : DecodeOptions) :
    Nat → Nat → Option String → Step Unit
  | 0 => meet fun id _ => throw (.missingObject id)
  | unmet + 1 => meet (rewrite registry (value registry options (object registry options unmet)))
  termination_by structural unmet => unmet

/-- Fits a value over a graph to a type. -/
def project (registry : Registry) (options : DecodeOptions) (graph : Graph) (v : Value)
    (tag : TypeTag) (path : String) : Except Misfit Returned := do
  let (v, progress) ←
    StateT.run (value registry options (object registry options graph.size) path tag v) { graph }
  pure { graph := progress.graph, value := v }

/-- Fits the arguments that were sent to declared parameters. -/
def bind (registry : Registry) (options : DecodeOptions) (params : List FieldDecl)
    (sent : Arguments) : Except Misfit Arguments := do
  let fit := fun (d : FieldDecl) v =>
    value registry options (object registry options sent.graph.size) d.name d.tag v
  let (values, progress) ←
    StateT.run (fill fit (fun d => .missingArgument d.name) params sent.values)
      { graph := sent.graph }
  pure { graph := progress.graph, values }

end Projection

end RemoteCall
