/-
# The operations of a server

A server answers the operations that a handler has been registered for.  Only operations that are
declared can have a handler.
-/
import RemoteCall.Address.Socket
import RemoteCall.Message

namespace RemoteCall

/-- What a handler knows about the request that it answers. -/
structure Invocation where
  /-- The operation. -/
  key : OperationKey
  /-- The context of the call. -/
  context : Context
  /-- The arguments, fitted to the parameters. -/
  arguments : Arguments
  /-- The session of the server. -/
  session : String
  /-- The address of the client. -/
  remote : SocketAddress
deriving Repr, Inhabited

/-- How a handler ends. -/
inductive HandlerOutcome
  /-- It has a result. -/
  | returned (result : Returned)
  /-- It refuses. -/
  | refused (fault : Fault)
  /-- It breaks down. -/
  | brokeDown
deriving Repr, Inhabited

/-- The application's part of an operation. -/
abbrev Handler : Type := Invocation → HandlerOutcome

/-- An operation together with its handler. -/
structure Operation where
  /-- The declaration. -/
  decl : OperationDecl
  /-- The handler. -/
  handler : Handler

/-- The operations of a server. -/
structure Operations where
  /-- The declarations. -/
  registry : Registry
  /-- The operations that have a handler. -/
  registered : List Operation := []

namespace Operations

/-- Registers the handler of an operation, in the place of an earlier one. -/
def register (o : Operations) (key : OperationKey) (handler : Handler) :
    Except Failure Operations := do
  let decl ← o.registry.requireOperation key
  let others := o.registered.filter fun p => p.decl.key != key
  pure { o with registered := others ++ [{ decl, handler }] }

/-- The operation of a key, if it has a handler. -/
def lookUp (o : Operations) (key : OperationKey) : Except Failure Operation :=
  match o.registered.find? fun p => p.decl.key == key with
  | some p => .ok p
  | none => .error (.unknownOperation key.text)

/-- The keys of the operations that have a handler. -/
def keys (o : Operations) : List OperationKey := o.registered.map fun p => p.decl.key

/-- The number of operations that have a handler. -/
def size (o : Operations) : Nat := o.registered.length

end Operations

end RemoteCall
