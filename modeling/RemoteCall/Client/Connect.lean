/-
# Connecting to a server

A client tries the addresses of a candidate until one takes the connection.  The failure of a
candidate names what went wrong at the last of them.
-/
import RemoteCall.Address.Socket
import RemoteCall.Failure

namespace RemoteCall

/-- Why an address does not take a connection. -/
inductive DialFailure
  /-- It refuses, or cannot be reached. -/
  | refused (reason : String)
  /-- It does not answer. -/
  | timedOut (after : Duration)
deriving DecidableEq, Repr, Inhabited

/-- The text of a cause. -/
def DialFailure.message : DialFailure → String
  | refused reason => reason
  | timedOut after => "timed out after " ++ after.text

/-- The failure of a candidate none of whose addresses takes a connection. -/
def dialFailure (candidate : String) (last : Option DialFailure) : Failure :=
  .communicationFailure <|
    "failed to connect to " ++ candidate ++ ": " ++
      (last.map DialFailure.message).getD "unknown error"

/-- The first connection that one of some addresses takes. -/
def dialFirst {α : Type} (candidate : String) (dial : SocketAddress → Except DialFailure α) :
    Option DialFailure → List SocketAddress → Except Failure α
  | last, [] => .error (dialFailure candidate last)
  | _, a :: rest =>
    match dial a with
    | .ok link => .ok link
    | .error e => dialFirst candidate dial (some e) rest

end RemoteCall
