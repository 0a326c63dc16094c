/-
# Calls made by many tasks at once

Any number of calls are sent at the same time, on the same sessions, while answers come, deadlines
pass and sessions are lost.  Every step that a task takes on its own is one move here.
-/
import RemoteCall.Client.Correlator

namespace RemoteCall

/-- The calls of a client together with the tasks that are under way. -/
structure CallTasks where
  /-- The calls. -/
  calls : Calls
  /-- The calls that are being sent. -/
  sending : List Calls.Sending := []
  /-- The tasks that clear out entries. -/
  clearing : List Calls.Clearing := []

namespace CallTasks

/-- A step of one task. -/
inductive Move
  /-- A call begins to be sent. -/
  | beginSend (session : String) (call : Call)
  /-- The sending of a call goes on. -/
  | advance (index : Nat) (now : Duration)
  /-- An answer comes on a session. -/
  | answer (session : String) (frame : Frame)
  /-- A task begins to clear out the calls whose deadline has come. -/
  | beginSweep (now : Duration)
  /-- A task begins to clear out the calls of a session. -/
  | beginFail (session reason : String)
  /-- A task that clears out entries looks at one. -/
  | clearOne (index : Nat)
  /-- A session is used for something else: it is moved to a state or ended, its version is settled,
  or it sends a frame of another kind. -/
  | perform (session : String) (call : SessionCall)
  /-- The queue of a session loses its reader. -/
  | dropQueue (session : String)

/-- The calls and the tasks after a step. -/
def next (t : CallTasks) : Move → CallTasks
  | .beginSend id call =>
    let (calls, begun) := t.calls.begin id call
    { t with calls, sending := t.sending ++ begun.toList }
  | .advance i now =>
    match t.sending[i]? with
    | none => t
    | some p =>
      let (calls, p) := t.calls.advance now p
      { t with calls, sending := t.sending.set i p }
  | .answer id frame => { t with calls := t.calls.onAnswer id frame }
  | .beginSweep now => { t with clearing := t.clearing ++ [t.calls.beginSweep now] }
  | .beginFail id reason => { t with clearing := t.clearing ++ [t.calls.beginFail id reason] }
  | .clearOne i =>
    match t.clearing[i]? with
    | none => t
    | some c =>
      let (calls, c) := t.calls.clearOne c
      { t with calls, clearing := t.clearing.set i c }
  | .perform id call => { t with calls := t.calls.onSession id fun s => (s.perform call).1 }
  | .dropQueue id => { t with calls := t.calls.onSession id Session.dropQueue }

/-- The calls and the tasks after some steps. -/
def run (t : CallTasks) (moves : List Move) : CallTasks := moves.foldl next t

end CallTasks

end RemoteCall
