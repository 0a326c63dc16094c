/-
# Declarations of types, enumerations and operations

Each end of a connection has its own registry of declarations.  Nothing of it is sent: the two
ends may differ, and values are fitted to the local declarations when they are read.
-/
import RemoteCall.Failure

namespace RemoteCall

/-- The declared type of a value. -/
inductive TypeTag
  /-- Any value. -/
  | any
  | bool
  | int
  | float
  | str
  | bytes
  /-- A constant of the enumeration of a name. -/
  | enum (name : String)
  | list (element : TypeTag)
  | set (element : TypeTag)
  | map (key value : TypeTag)
  /-- An object of the type of a name. -/
  | object (name : String)
deriving DecidableEq, Repr, Inhabited

/-- The text of a declared type. -/
def TypeTag.text : TypeTag → String
  | any => "any"
  | bool => "bool"
  | int => "int"
  | float => "float"
  | str => "string"
  | bytes => "bytes"
  | enum name => "enum " ++ name
  | list element => "list<" ++ element.text ++ ">"
  | set element => "set<" ++ element.text ++ ">"
  | map key value => "map<" ++ key.text ++ ", " ++ value.text ++ ">"
  | object name => name

/-- The declaration of a field or a parameter. -/
structure FieldDecl where
  /-- The name. -/
  name : String
  /-- The type. -/
  tag : TypeTag
  /-- Whether a value has to be given. -/
  mandatory : Bool := false
deriving DecidableEq, Repr, Inhabited

/-- The declaration of a type of objects. -/
structure TypeSchema where
  /-- The name of the type. -/
  name : String
  /-- Its fields, in order. -/
  fields : List FieldDecl := []
deriving DecidableEq, Repr, Inhabited

/-- The declaration of an enumeration. -/
structure EnumSchema where
  /-- The name of the enumeration. -/
  name : String
  /-- Its constants. -/
  constants : List String
  /-- The constant that stands for constants that are not known. -/
  sentinel : Option String := none
deriving DecidableEq, Repr, Inhabited

namespace EnumSchema

/-- Whether an enumeration has a constant. -/
def contains (s : EnumSchema) (constant : String) : Bool := s.constants.contains constant

/-- The enumeration with a constant that stands for unknown ones; it becomes a constant of the
enumeration if it is none yet. -/
def withSentinel (s : EnumSchema) (constant : String) : EnumSchema :=
  { s with
    constants := if s.contains constant then s.constants else s.constants ++ [constant]
    sentinel := some constant }

theorem contains_withSentinel (s : EnumSchema) (constant : String) :
    (s.withSentinel constant).contains constant = true := by
  by_cases h : constant ∈ s.constants <;> simp [withSentinel, contains, h]

end EnumSchema

/-- The name of an operation: a service, its version and the operation. -/
structure OperationKey where
  /-- The service. -/
  service : String
  /-- The version of the service. -/
  version : String
  /-- The operation. -/
  operation : String
deriving DecidableEq, Repr, Inhabited

/-- The text of a key. -/
def OperationKey.text (k : OperationKey) : String :=
  k.service ++ "/" ++ k.version ++ "/" ++ k.operation

/-- The declaration of an operation. -/
structure OperationDecl where
  /-- The name of the operation. -/
  key : OperationKey
  /-- Its parameters, in order. -/
  params : List FieldDecl := []
  /-- The type of its result, if one is declared. -/
  returns : Option TypeTag := none
deriving DecidableEq, Repr, Inhabited

/-- The declarations that one end of a connection knows.  A name is declared at most once: a
later declaration replaces an earlier one. -/
structure Registry where
  /-- The types. -/
  types : List TypeSchema := []
  /-- The enumerations. -/
  enums : List EnumSchema := []
  /-- The operations. -/
  operations : List OperationDecl := []
deriving DecidableEq, Repr, Inhabited

namespace Registry

/-- Adds a type. -/
def addType (r : Registry) (s : TypeSchema) : Registry :=
  { r with types := r.types.filter (fun t => t.name != s.name) ++ [s] }

/-- Adds an enumeration. -/
def addEnum (r : Registry) (s : EnumSchema) : Registry :=
  { r with enums := r.enums.filter (fun t => t.name != s.name) ++ [s] }

/-- Adds an operation. -/
def addOperation (r : Registry) (d : OperationDecl) : Registry :=
  { r with operations := r.operations.filter (fun o => o.key != d.key) ++ [d] }

/-- The type of a name. -/
def type? (r : Registry) (name : String) : Option TypeSchema :=
  r.types.find? fun t => t.name == name

/-- The enumeration of a name. -/
def enum? (r : Registry) (name : String) : Option EnumSchema :=
  r.enums.find? fun t => t.name == name

/-- The operation of a key. -/
def operation? (r : Registry) (key : OperationKey) : Option OperationDecl :=
  r.operations.find? fun o => o.key == key

/-- The operation of a key, or the failure that it is not known. -/
def requireOperation (r : Registry) (key : OperationKey) : Except Failure OperationDecl :=
  match r.operation? key with
  | some d => .ok d
  | none => .error (.unknownOperation key.text)

/-- The keys of the operations. -/
def operationKeys (r : Registry) : List OperationKey := r.operations.map OperationDecl.key

theorem name_of_type? {r : Registry} {name : String} {s : TypeSchema}
    (h : r.type? name = some s) : s.name = name := by
  simpa using List.find?_some h

end Registry

end RemoteCall
