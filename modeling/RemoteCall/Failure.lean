/-
# What can go wrong

A failure names the part of a call that went wrong.  Three questions are asked of a failure:
its text, whether the connection it happened on can go on, and the fault that stands for it when
a server has to answer a request with it.
-/
import RemoteCall.Duration
import RemoteCall.Text.Quoted

namespace RemoteCall

/-! ## Faults: failures that travel -/

/-- The reason that a server gives for not answering a request. -/
inductive FaultCode
  /-- The server failed. -/
  | server
  /-- The request could not be read. -/
  | client
  /-- The request names an operation that is not known or has no handler. -/
  | noSuchOperation
  /-- The arguments do not fit the operation. -/
  | validation
  /-- An argument is a constant that its enumeration does not have. -/
  | enumDeserialisation
  /-- The handler itself refused. -/
  | application
deriving DecidableEq, Repr, Inhabited

namespace FaultCode

/-- The name of a code, as sent. -/
def name : FaultCode → String
  | server => "Server"
  | client => "Client"
  | noSuchOperation => "NoSuchOperation"
  | validation => "Validation"
  | enumDeserialisation => "EnumDeserialisation"
  | application => "Application"

/-- The code of a name; a name that is not known stands for a failure of the server. -/
def ofName (name : String) : FaultCode :=
  if name = "Client" then client
  else if name = "NoSuchOperation" then noSuchOperation
  else if name = "Validation" then validation
  else if name = "EnumDeserialisation" then enumDeserialisation
  else if name = "Application" then application
  else server

theorem ofName_name (c : FaultCode) : ofName c.name = c := by
  cases c <;> decide

end FaultCode

/-- What a server answers in place of a result. -/
structure Fault where
  /-- The reason. -/
  code : FaultCode
  /-- The reason in words. -/
  message : String
  /-- What the handler adds to it. -/
  detail : Option String := none
deriving DecidableEq, Repr, Inhabited

/-- The text of a fault: its code and its message. -/
def Fault.text (f : Fault) : String := f.code.name ++ ": " ++ f.message

/-! ## Failures -/

/-- A failure of one of the library's operations. -/
inductive Failure
  /-- The peer sent bytes that are no frame. -/
  | framing (detail : String)
  /-- The two ends speak no common version. -/
  | negotiationFailed (detail : String)
  /-- No answer came within the time that the call allowed. -/
  | timeout (allowed : Duration)
  /-- The session was lost, or cannot take a call. -/
  | communicationFailure (detail : String)
  /-- A constant that its enumeration does not have. -/
  | enumDeserialisation (enumName constant : String)
  /-- A value that does not fit its declaration. -/
  | validation (detail : String)
  /-- A value that cannot be written, or bytes that cannot be read. -/
  | marshalling (detail : String)
  /-- The server answered with a fault. -/
  | fault (fault : Fault)
  /-- An operation that is not defined. -/
  | unknownOperation (key : String)
  /-- A frame or a state change out of turn. -/
  | protocol (detail : String)
  /-- No session is active. -/
  | notConnected
  /-- The operation was called off. -/
  | cancelled
  /-- None of the candidate servers took a connection. -/
  | noViableAddress (detail : String)
  /-- Settings that cannot be used. -/
  | config (detail : String)
  /-- Reading or writing failed. -/
  | io (detail : String)
deriving DecidableEq, Repr, Inhabited

namespace Failure

/-- The text of a failure. -/
def message : Failure → String
  | framing detail => "Framing error: " ++ detail
  | negotiationFailed detail => "Negotiation failed: " ++ detail
  | timeout allowed => "Call timed out after " ++ allowed.text
  | communicationFailure detail => "Communication failure: " ++ detail
  | enumDeserialisation enumName constant =>
    "Enum deserialisation failed: " ++ enumName ++ " has no constant " ++ Text.quoted constant
  | validation detail => "Validation failed: " ++ detail
  | marshalling detail => "Marshalling error: " ++ detail
  | fault f => "Remote fault: " ++ f.text
  | unknownOperation key => "Unknown operation: " ++ key
  | protocol detail => "Protocol error: " ++ detail
  | notConnected => "Not connected"
  | cancelled => "Cancelled"
  | noViableAddress detail => "No viable address: " ++ detail
  | config detail => "Config error: " ++ detail
  | io detail => "IO error: " ++ detail

/-- The name of the kind of a failure. -/
def kind : Failure → String
  | framing _ => "Framing"
  | negotiationFailed _ => "NegotiationFailed"
  | timeout _ => "Timeout"
  | communicationFailure _ => "CommunicationFailure"
  | enumDeserialisation .. => "EnumDeserialisation"
  | validation _ => "Validation"
  | marshalling _ => "Marshalling"
  | fault _ => "Fault"
  | unknownOperation _ => "UnknownOperation"
  | protocol _ => "Protocol"
  | notConnected => "NotConnected"
  | cancelled => "Cancelled"
  | noViableAddress _ => "NoViableAddress"
  | config _ => "Config"
  | io _ => "Io"

/-- Whether the connection that a failure happened on cannot go on. -/
def isConnectionFatal : Failure → Bool
  | framing _ | negotiationFailed _ | io _ => true
  | _ => false

/-- The fault that a server answers a request with when it fails with a given failure. -/
def toFault : Failure → Fault
  | fault f => f
  | validation detail => { code := .validation, message := detail }
  | f@(enumDeserialisation ..) => { code := .enumDeserialisation, message := f.message }
  | unknownOperation key =>
    { code := .noSuchOperation, message := "No such operation: " ++ key }
  | marshalling detail => { code := .client, message := detail }
  | other => { code := .server, message := other.message }

end Failure

end RemoteCall
