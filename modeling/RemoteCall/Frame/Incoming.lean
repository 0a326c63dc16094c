/-
# What a reader of a connection meets

A server reads frames from a connection until it ends, and gives up on a handshake that does not
come in time.
-/
import RemoteCall.Frame.Basic

namespace RemoteCall

/-- What a reader of a connection meets. -/
inductive Incoming
  /-- A frame. -/
  | frame (frame : Frame)
  /-- The end of the connection, between two frames. -/
  | closed
  /-- Bytes that are no frame, or a read that failed. -/
  | failed (failure : Failure)
  /-- Nothing, for as long as the reader was willing to wait. -/
  | timedOut
deriving DecidableEq, Repr, Inhabited

end RemoteCall
