/-
# Candidate servers

A client is given a list of candidate servers in one text, and finds the socket addresses that
the text of a candidate stands for: either an address as it is written, or a host and a port with
a colon between them.
-/
import RemoteCall.Address.Host
import RemoteCall.Failure
import RemoteCall.Text.Blank

namespace RemoteCall

/-- The candidates of a list: the pieces between commas without the blanks around them, as far
as anything is left. -/
def candidatesOf (list : String) : List String :=
  ((Text.pieces ',' list.toList).map Text.trim).filter (fun l => !l.isEmpty) |>.map String.ofList

namespace SocketAddress

/-- A text cut at its last colon. -/
def cutAtLastColon? (l : List Char) : Option (List Char × List Char) :=
  let back := l.reverse.takeWhile (· != ':')
  if back.length = l.length then none
  else some (l.take (l.length - back.length - 1), back.reverse)

/-- Why a text stands for no address. -/
inductive Unresolved
  /-- There is no port. -/
  | noPort
  /-- The port is no number below 65536. -/
  | badPort
  /-- The host has no address. -/
  | badHost (fault : HostFault)
deriving DecidableEq, Repr, Inhabited

/-- The text of a cause. -/
def Unresolved.message : Unresolved → String
  | noPort => "invalid socket address"
  | badPort => "invalid port value"
  | badHost fault => fault.message

/-- The addresses that the text of a candidate stands for. -/
def lookUp (s : String) : Except Unresolved (List SocketAddress) :=
  match ofString? s with
  | some a => .ok [a]
  | none =>
    match cutAtLastColon? s.toList with
    | none => .error .noPort
    | some (host, port) =>
      match Text.natBelow? 65536 (String.ofList port) with
      | none => .error .badPort
      | some port =>
        match ofHost host (UInt16.ofNat port) with
        | .ok a => .ok [a]
        | .error fault => .error (.badHost fault)

/-- The addresses that the text of a candidate stands for, or the failure of a call that needs
them. -/
def resolve (s : String) : Except Failure (List SocketAddress) :=
  match lookUp s with
  | .ok l => .ok l
  | .error e => .error (.communicationFailure ("cannot resolve '" ++ s ++ "': " ++ e.message))

end SocketAddress

end RemoteCall
