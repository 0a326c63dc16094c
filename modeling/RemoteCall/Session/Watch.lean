/-
# An end of a connection over time

The clock goes on from one nanosecond to the next.  At each of them the tasks of a session use it
first, in whatever way, and what waits in its queue is written.  When it is time for a look, the
session is looked at, and what then waits is written.  Neither the timer nor the writer is ever
late.
-/
import RemoteCall.Session.KeepAlive
import RemoteCall.Session.Writer

namespace RemoteCall

/-- A session and its writer. -/
structure LiveEnd where
  /-- The session. -/
  session : Session
  /-- The writer. -/
  writer : Writer := {}
deriving DecidableEq, Repr, Inhabited

/-- Writes everything that waits in the queue. -/
def LiveEnd.flush (now : Duration) (x : LiveEnd) : LiveEnd :=
  let (writer, session) := x.writer.settle none now (Writer.patience x.session) x.session
  { session, writer }

/-- An end of a connection that is watched from some time on. -/
structure WatchedEnd where
  /-- The limits of silence. -/
  limits : KeepAlive
  /-- The time of the first look. -/
  start : Nat
  /-- What the other tasks do to the session, so many nanoseconds after the start. -/
  others : Nat → Session → Session
  /-- The session at the start. -/
  session : Session

namespace WatchedEnd

/-- The time `n` nanoseconds after the start. -/
def time (r : WatchedEnd) (n : Nat) : Duration := ⟨r.start + n⟩

/-- Whether it is time for a look. -/
def looksAt (r : WatchedEnd) (n : Nat) : Bool := n % r.limits.pause.nanos == 0

/-- What happens at a time. -/
def instant (r : WatchedEnd) (n : Nat) (x : LiveEnd) : LiveEnd :=
  let x := LiveEnd.flush (r.time n) { x with session := r.others n x.session }
  if r.looksAt n then
    LiveEnd.flush (r.time n) { x with session := r.limits.look (r.time n) x.session }
  else x

/-- What is found at a time, before anything happens at it. -/
def found (r : WatchedEnd) : Nat → LiveEnd
  | 0 => { session := r.session }
  | n + 1 => r.instant n (r.found n)

/-- The number of bytes that are written at a time. -/
def bytesAt (r : WatchedEnd) (n : Nat) : Nat :=
  (r.found (n + 1)).writer.sink.written.length - (r.found n).writer.sink.written.length

/-- Whether anything is written at a time. -/
def sendsAt (r : WatchedEnd) (n : Nat) : Bool := r.bytesAt n != 0

/-- The session of a peer, which reads everything at the time at which it is written, after its own
tasks have used the session. -/
def peer (r : WatchedEnd) (others : Nat → Session → Session) (q : Session) : Nat → Session
  | 0 => q
  | n + 1 =>
    let q := others n (r.peer others q n)
    if r.sendsAt n then q.recordRead (r.time n) (r.bytesAt n) else q

end WatchedEnd

end RemoteCall
