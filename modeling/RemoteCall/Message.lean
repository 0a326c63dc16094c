/-
# Requests, results and faults as payloads

A request payload holds the key of its operation, the context and the arguments over one graph;
a result payload holds one value over its graph; a fault payload holds the fault.  Bytes behind
the last element are left unread.
-/
import RemoteCall.Context
import RemoteCall.Projection
import RemoteCall.Wire.Graph

namespace RemoteCall

open Wire

/-! ## Requests -/

/-- A request as it was sent: its arguments have not been fitted to declarations yet. -/
structure Request where
  /-- The operation. -/
  key : OperationKey
  /-- The context of the call. -/
  context : Context
  /-- The arguments as sent; names may repeat. -/
  arguments : Arguments
deriving Repr, Inhabited

namespace Request

/-- The bytes of a key. -/
def putKey (k : OperationKey) : List UInt8 :=
  putText k.service ++ putText k.version ++ putText k.operation

/-- The bytes of arguments. -/
def putArguments (a : Arguments) : Except Unwritable (List UInt8) :=
  Writer.run (Writer.counted (Writer.named (Writer.outermost a.graph)) a.values)

/-- The payload of a request. -/
def encode (v : ProtocolVersion) (r : Request) : Except Failure (List UInt8) :=
  match putArguments r.arguments with
  | .ok bytes => .ok (putKey r.key ++ (r.context.encode v ++ bytes))
  | .error e => .error e.toFailure

/-- Takes a key. -/
def readKey : Reader OperationKey := do
  let service ← Reader.text
  let version ← Reader.text
  let operation ← Reader.text
  pure { service, version, operation }

/-- Takes arguments. -/
def readArguments : Reader Arguments := do
  let (values, graph) ←
    StateT.run (GraphReader.counted (GraphReader.named GraphReader.outermost)) Graph.empty
  pure { graph, values }

/-- Takes a request. -/
def read (v : ProtocolVersion) : Reader Request := do
  let key ← readKey
  let context ← Context.read v
  let arguments ← readArguments
  pure { key, context, arguments }

/-- The request of a payload. -/
def decode (v : ProtocolVersion) (payload : List UInt8) : Except Failure Request :=
  match (read v).run payload with
  | .ok r => .ok r
  | .error e => .error e.toFailure

/-- The arguments of a request fitted to the parameters of its operation. -/
def bind (registry : Registry) (options : DecodeOptions) (params : List FieldDecl)
    (r : Request) : Except Failure Arguments :=
  match Projection.bind registry options params r.arguments with
  | .ok a => .ok a
  | .error e => .error e.toFailure

end Request

/-! ## Results -/

namespace Returned

/-- The payload of a result. -/
def encode (r : Returned) : Except Failure (List UInt8) :=
  match Writer.run (Writer.outermost r.graph r.value) with
  | .ok bytes => .ok bytes
  | .error e => .error e.toFailure

/-- Takes a result as it was sent. -/
def read : Reader Returned := do
  let (value, graph) ← StateT.run GraphReader.outermost Graph.empty
  pure { graph, value }

/-- The result of a payload, fitted to the declared type; without a declaration, any value is a
result. -/
def decode (registry : Registry) (options : DecodeOptions) (returns : Option TypeTag)
    (payload : List UInt8) : Except Failure Returned :=
  match read.run payload with
  | .error e => .error e.toFailure
  | .ok sent =>
    match Projection.project registry options sent.graph sent.value (returns.getD .any) "result"
    with
    | .ok r => .ok r
    | .error e => .error e.toFailure

end Returned

/-! ## Faults -/

namespace Fault

/-- The payload of a fault. -/
def encode (f : Fault) : List UInt8 :=
  putText f.code.name ++ (putText f.message ++ putOptional putText f.detail)

/-- Takes a fault. -/
def read : Reader Fault := do
  let code ← Reader.text
  let message ← Reader.text
  let detail ← Reader.optional Reader.text
  pure { code := .ofName code, message, detail }

/-- The fault of a payload. -/
def decode (payload : List UInt8) : Except Failure Fault :=
  match read.run payload with
  | .ok f => .ok f
  | .error e => .error e.toFailure

end Fault

end RemoteCall
