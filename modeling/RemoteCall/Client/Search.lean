/-
# Passes over the candidates, question by question

A pass asks the probe about a candidate and, if it is up, makes an attempt at it.  The answers may
depend on all that the pass has found out before, and the client may be stopped between any two of
them.  What was asked, and what came of it, is written down.
-/
import RemoteCall.Client.Factory

namespace RemoteCall

/-- What a pass finds out about a candidate. -/
inductive Answer
  /-- Whether the probe takes it for up. -/
  | probed (up : Bool)
  /-- The outcome of an attempt. -/
  | attempted (outcome : Except Failure Session)

/-- Something that a pass has found out. -/
structure Inquiry where
  /-- The client at that time. -/
  client : Factory
  /-- The candidate. -/
  index : Nat
  /-- The answer. -/
  answer : Answer

/-- What a pass depends on besides its client, given what it has found out before. -/
structure Outside where
  /-- Whether the client is still to look for sessions. -/
  running : List Inquiry → Bool
  /-- Whether a candidate is up. -/
  probe : List Inquiry → Nat → Bool
  /-- The outcome of an attempt at a candidate. -/
  attempt : List Inquiry → Nat → Except Failure Session

/-- What becomes of a pass. -/
structure Search where
  /-- The session that it ends with. -/
  session : Option Session
  /-- The client. -/
  client : Factory
  /-- What it has found out. -/
  log : List Inquiry

/-- A session that nobody wants any more: it is told so, or else ended at once. -/
def Session.dismissed (s : Session) : Session :=
  match s.sendControl .disconnect with
  | .ok t => t
  | .error _ => s.closed

namespace Factory

/-- Goes on with a pass at some offsets. -/
def searchOver (o : Outside) (first : Nat) : List Nat → List Inquiry → Factory → Search
  | [], log, f => ⟨none, f, log⟩
  | offset :: rest, log, f =>
    if !o.running log then ⟨none, f, log⟩
    else
      let i := f.candidateAt first offset
      let up := o.probe log i
      let log := log ++ [⟨f, i, .probed up⟩]
      if !up then searchOver o first rest log (f.setStatus i .failed)
      else
        let f := f.setStatus i .connecting
        let outcome := o.attempt log i
        let log := log ++ [⟨f, i, .attempted outcome⟩]
        match outcome with
        | .error e => searchOver o first rest log (f.noteFailure i e)
        | .ok s =>
          if !o.running log then ⟨none, (f.addSession s.dismissed).setStatus i .disconnected, log⟩
          else ⟨some s, ((f.addSession s).place i s.id).setStatus i .connected, log⟩

/-- One pass over all candidates. -/
def search (o : Outside) (f : Factory) : Search := searchOver o f.first (List.range f.count) [] f

end Factory

end RemoteCall
