/-
# Writing the frames of a session

Each session has one writer, which takes frames from the queue and writes them.  Frames that wait
in the queue go before anything else, so that a last frame still reaches the other end: the writer
looks at the queue first, and only when that is empty at the state of the session.  After a
DISCONNECT, and after a write that failed, it ends the session and stops.
-/
import RemoteCall.Session.Basic

namespace RemoteCall

/-- Where bytes are written to. -/
structure Sink where
  /-- What has been written. -/
  written : List UInt8 := []
  /-- Whether nothing more will be written. -/
  isShut : Bool := false
deriving DecidableEq, Repr, Inhabited

/-- How an attempt to write some bytes ends. -/
inductive WriteOutcome
  /-- All bytes are written. -/
  | whole
  /-- So many bytes are written, then writing fails. -/
  | cut (accepted : Nat)
deriving DecidableEq, Repr, Inhabited

namespace Sink

/-- Writes bytes, with a given outcome. -/
def write (k : Sink) (bytes : List UInt8) : WriteOutcome → Sink
  | .whole => { k with written := k.written ++ bytes }
  | .cut accepted => { k with written := k.written ++ bytes.take accepted }

/-- The outcome of a write to a sink that fails as soon as a number of bytes are in. -/
def outcome (k : Sink) (capacity : Option Nat) : WriteOutcome :=
  match capacity with
  | none => .whole
  | some n => if k.written.length < n then .whole else .cut 0

end Sink

/-- Writes one frame outside of any session. -/
def writeFrame (k : Sink) (f : Frame) (outcome : WriteOutcome) (reason : String) :
    Sink × Except Failure Unit :=
  match f.encode with
  | .error e => (k, .error e.toFailure)
  | .ok bytes =>
    (k.write bytes outcome,
      match outcome with
      | .whole => .ok ()
      | .cut _ => .error (.io reason))

/-- Why a writer stops. -/
inductive WriterEnd
  /-- A frame could not be written. -/
  | failed
  /-- It wrote a DISCONNECT. -/
  | parted
  /-- The session was over and nothing was left to write. -/
  | emptied
deriving DecidableEq, Repr, Inhabited

/-- What a writer does next. -/
inductive WriterStage
  /-- Looks at the queue. -/
  | polling
  /-- The queue was empty; looks whether the session is over. -/
  | checking
  /-- Writes a frame. -/
  | writing (frame : Frame)
  /-- The session is over; takes what is left in the queue. -/
  | emptying
  /-- Writes a frame that was left. -/
  | flushing (frame : Frame)
  /-- Shuts the sink. -/
  | shutting (why : WriterEnd)
  /-- Nothing. -/
  | finished (why : WriterEnd)
deriving DecidableEq, Repr, Inhabited

/-- The writer of a session. -/
structure Writer where
  /-- Where it writes to. -/
  sink : Sink := {}
  /-- What it does next. -/
  stage : WriterStage := .polling
deriving DecidableEq, Repr, Inhabited

namespace Writer

/-- The writer in another stage. -/
def goTo (w : Writer) (stage : WriterStage) : Writer := { w with stage }

/-- Whether the writer has stopped. -/
def isFinished (w : Writer) : Bool :=
  match w.stage with
  | .finished _ => true
  | _ => false

/-- Writes a frame of a session.  The writer goes to the stage `next` after a success. -/
def writeOne (w : Writer) (now : Duration) (s : Session) (f : Frame) (outcome : WriteOutcome)
    (next : WriterStage) : Writer × Session :=
  match f.encode, outcome with
  | .error _, _ => (w.goTo (.shutting .failed), s.closed)
  | .ok bytes, .cut n =>
    ({ sink := w.sink.write bytes (.cut n), stage := .shutting .failed }, s.closed)
  | .ok bytes, .whole =>
    ({ sink := w.sink.write bytes .whole, stage := next }, s.recordWrite now bytes.length)

/-- One step of the writer of a session.  The outcome counts only if the step writes. -/
def step (w : Writer) (now : Duration) (s : Session) (outcome : WriteOutcome) :
    Writer × Session :=
  match w.stage with
  | .polling =>
    match s.queue with
    | f :: rest => (w.goTo (.writing f), { s with queue := rest })
    | [] => (w.goTo .checking, s)
  | .checking => (w.goTo (if s.state.isTerminal then .emptying else .polling), s)
  | .writing f =>
    match f.type with
    | .disconnect =>
      let (w, s) := w.writeOne now s f outcome (.shutting .parted)
      (w, s.closed)
    | _ => w.writeOne now s f outcome .polling
  | .emptying =>
    match s.queue with
    | f :: rest => (w.goTo (.flushing f), { s with queue := rest })
    | [] => (w.goTo (.shutting .emptied), s)
  | .flushing f => w.writeOne now s f outcome .emptying
  | .shutting why =>
    ({ sink := { w.sink with isShut := true }, stage := .finished why }, s.dropQueue)
  | .finished _ => (w, s)

/-- Whether the writer waits until something happens to the session. -/
def isBlocked (w : Writer) (s : Session) : Bool :=
  match w.stage with
  | .polling | .checking => s.queue.isEmpty && !s.state.isTerminal
  | .finished _ => true
  | _ => false

/-- The number of steps that the writer takes at most before it waits or stops. -/
def patience (s : Session) : Nat := 2 * s.queue.length + 8

/-- The writer of a session and the session once the writer waits or has stopped, given the number
of bytes that the sink takes. -/
def settle (capacity : Option Nat) (now : Duration) : Nat → Writer → Session → Writer × Session
  | 0, w, s => (w, s)
  | fuel + 1, w, s =>
    if w.isBlocked s then (w, s)
    else
      let (w, s) := w.step now s (w.sink.outcome capacity)
      settle capacity now fuel w s

end Writer

end RemoteCall
