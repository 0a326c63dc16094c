/-
# Sessions but for the count of their calls

What a session does with a call that is sent on it depends on all of the session but for the count
of its calls, and on what is the same for all calls.  That count is all that answers, deadlines and
the loss of a session change, so that the rest of a session follows from the calls that were sent on
it and from its other uses alone.
-/
import RemoteCall.Proofs.Client.Sending
import RemoteCall.Proofs.Session

namespace RemoteCall

namespace Session

/-- The session without its count of calls. -/
def uncounted (s : Session) : Session := { s with outstanding := 0 }

lemma sendFrame_uncounted (s : Session) (f : Frame) :
    s.uncounted.sendFrame f = (s.sendFrame f).map uncounted := by
  by_cases hstate : s.state.isTerminal = true <;> by_cases hopen : s.queueOpen = true <;>
    simp [sendFrame, letPass, push, uncounted, hstate, hopen, Except.map, bind, Except.bind]

lemma fst_settle_map (s : Session) (r : Except Failure Session) :
    (s.uncounted.settle (r.map uncounted)).1 = (s.settle r).1.uncounted := by
  cases r <;> rfl

lemma uncounted_perform (s : Session) (c : SessionCall) :
    (s.uncounted.perform c).1 = (s.perform c).1.uncounted := by
  cases c with
  | moveTo next =>
    by_cases h : s.state.mayBecome next = true <;> simp [perform, moveTo, uncounted, h]
  | forceDisconnect =>
    by_cases h : s.state.isTerminal = true <;> simp [perform, forceDisconnect, uncounted, h]
  | setVersion v =>
    rcases h : s.version with _ | w <;> simp [perform, setVersion, settle, uncounted, h]
  | sendFrame f =>
    rw [perform, sendFrame_uncounted]
    exact s.fst_settle_map _
  | sendControl t =>
    have hversion : s.uncounted.version = s.version := rfl
    simp only [perform, sendControl, hversion]
    cases s.version with
    | none => rfl
    | some v =>
      simp only [sendFrame_uncounted]
      exact s.fst_settle_map _

end Session

namespace Calls

variable {x y : Calls} {id : String} {now : Duration} {call : Call}

/-! ## What is the same for all calls -/

/-- What is the same for all calls. -/
def rules (x : Calls) : Correlator := { x.correlator with pending := [] }

lemma rules_resolve (x : Calls) (key : CallKey) (f : Pending → Outcome) :
    (x.resolve key f).2.rules = x.rules := by
  rcases x.resolve_cases key f with ⟨hy, -⟩ | ⟨p, -, -, hy⟩
  · rw [hy]
  · rw [hy]
    rfl

lemma rules_send (x : Calls) (now : Duration) (id : String) (call : Call) :
    (x.send now id call).rules = x.rules :=
  send_induction (P := fun y => y.rules = x.rules) (fun _ => rfl) (fun _ => rfl)
    (fun _ _ => rfl) (fun y key f hy => (y.rules_resolve key f).trans hy) fun _ _ hy => hy

lemma rules_next (x : Calls) (e : Event) : (x.next e).rules = x.rules :=
  next_induction (P := fun y => y.rules = x.rules) rfl x.rules_send
    (fun y key f hy => (y.rules_resolve key f).trans hy) (fun _ _ _ hy => hy) e

lemma rules_run (x : Calls) (es : List Event) : (x.run es).rules = x.rules := by
  induction es generalizing x with
  | nil => rfl
  | cons e es ih => exact (ih (x.next e)).trans (x.rules_next e)

lemma terms_congr (h : y.rules = x.rules) (call : Call) :
    y.correlator.terms call = x.correlator.terms call := by
  show y.rules.terms call = x.rules.terms call
  rw [h]

/-! ## Views -/

/-- A session as far as it does not depend on which calls have ended. -/
def view (x : Calls) (id : String) : Option Session := (x.session? id).map Session.uncounted

lemma view_onSession_of_ne {i : String} (h : i ≠ id) (f : Session → Session) :
    (x.onSession id f).view i = x.view i := by
  rw [view, session?_onSession_of_ne h, view]

lemma view_onSession_self {f : Session → Session}
    (hf : ∀ s, (f s.uncounted).uncounted = (f s).uncounted) :
    (x.onSession id f).view id = (x.view id).map fun s => (f s).uncounted := by
  rw [view, session?_onSession, if_pos rfl, view]
  rcases x.session? id with _ | s
  · rfl
  · simp [hf]

lemma view_resolve (x : Calls) (key : CallKey) (f : Pending → Outcome) (i : String) :
    (x.resolve key f).2.view i = x.view i := by
  rcases x.resolve_cases key f with ⟨hy, -⟩ | ⟨p, -, -, hy⟩
  · rw [hy]
  · rw [hy]
    by_cases h : i = key.session
    · -- the count of the session goes down, which its view does not show
      subst h
      refine (view_onSession_self fun s => rfl).trans ?_
      show (Option.map Session.uncounted (x.session? key.session)).map _ = _
      rw [Option.map_map, view]
      rfl
    · exact view_onSession_of_ne h _

lemma view_clearKeys (x : Calls) (reason : ClearReason) (keys : List CallKey) (count : Nat)
    (i : String) : (x.clearKeys reason keys count).2.view i = x.view i :=
  clearKeys_induction (P := fun y => y.view i = x.view i)
    (fun y key _ hy => (y.view_resolve key _ i).trans hy) rfl

/-- A session after a call with a deadline, if the clock can tell that, was sent on it. -/
def sentOn (deadline : Option Duration) (s : Session) (call : Call) : Session :=
  match prepare s call with
  | .error _ => s
  | .ok (version, payload) =>
    match deadline with
    | none => numbered s
    | some _ =>
      match (numbered s).push (.make version .request s.nextCorrelation payload) with
      | .ok s' => s'
      | .error _ => numbered s

lemma sentOn_of_prepare {deadline : Duration} {s : Session} {v : ProtocolVersion × List UInt8}
    (h : prepare s call = .ok v) :
    sentOn (some deadline) s call =
      match (numbered s).push (.make v.1 .request s.nextCorrelation v.2) with
      | .ok s' => s'
      | .error _ => numbered s := by
  simp only [sentOn, h]

lemma uncounted_sentOn (deadline : Option Duration) (s : Session) (call : Call) :
    (sentOn deadline s.uncounted call).uncounted = (sentOn deadline s call).uncounted := by
  have hprepare : prepare s.uncounted call = prepare s call := rfl
  rw [sentOn, sentOn, hprepare]
  rcases prepare s call with e | ⟨version, payload⟩
  · rfl
  rcases deadline with _ | deadline
  · rfl
  · by_cases hopen : s.queueOpen = true <;>
      simp [Session.push, numbered, Session.uncounted, Session.takeCorrelation, Session.countUp,
        hopen]

lemma view_send (x : Calls) (now : Duration) (id : String) (call : Call) :
    (x.send now id call).view id =
      (x.view id).map fun s =>
        (sentOn ((x.correlator.terms call).deadline? now) s call).uncounted := by
  rcases hs : x.session? id with _ | s
  · rw [send_of_session?_eq_none hs]
    show (x.session? id).map Session.uncounted = _
    rw [view, hs]
    rfl
  have hview : x.view id = some s.uncounted := by rw [view, hs, Option.map_some]
  rw [hview, Option.map_some, uncounted_sentOn]
  rcases hprepare : prepare s call with e | v
  · rw [send_of_prepare_eq_error hs hprepare, sentOn, hprepare]
    exact hview
  have hcounted : (x.counted id s).session? id = some (numbered s) :=
    session?_onSession_self hs fun _ => numbered s
  rcases hdeadline : (x.correlator.terms call).deadline? now with _ | deadline
  · rw [send_of_deadline?_eq_none hs hprepare hdeadline, view, hcounted, sentOn, hprepare,
      Option.map_some]
  · have hentered : (x.entered deadline id s call).session? id = some (numbered s) := hcounted
    rw [send_of_prepare hs hprepare hdeadline, sentOn_of_prepare hprepare]
    rcases (numbered s).push (.make v.1 .request s.nextCorrelation v.2) with e | s'
    · refine (view_resolve _ _ _ id).trans ?_
      rw [view, hentered, Option.map_some]
    · rw [view, session?_onSession_self hentered, Option.map_some]

lemma view_send_of_ne {i : String} (h : i ≠ id) : (x.send now id call).view i = x.view i :=
  send_induction (P := fun y => y.view i = x.view i) (fun _ => rfl)
    (fun s => view_onSession_of_ne h fun _ => numbered s)
    (fun _ s => view_onSession_of_ne h fun _ => numbered s)
    (fun y key f hy => (y.view_resolve key f i).trans hy)
    fun _ f hy => (view_onSession_of_ne h f).trans hy

/-- Events that a session depends on but for the count of its calls. -/
def Event.shapes (id : String) : Event → Bool
  | .send _ i _ => i == id
  | .perform i _ => i == id
  | .dropQueue i => i == id
  | _ => false

lemma view_next_of_not_shapes {e : Event} (h : e.shapes id = false) :
    (x.next e).view id = x.view id := by
  cases e with
  | send now i call => exact view_send_of_ne (Ne.symm (beq_eq_false_iff_ne.mp h))
  | answer i frame => exact view_resolve _ _ _ id
  | sweep now => exact view_clearKeys _ _ _ _ id
  | fail i reason => exact view_clearKeys _ _ _ _ id
  | perform i c => exact view_onSession_of_ne (Ne.symm (beq_eq_false_iff_ne.mp h)) _
  | dropQueue i => exact view_onSession_of_ne (Ne.symm (beq_eq_false_iff_ne.mp h)) _

lemma view_next_congr (hrules : x.rules = y.rules) (hxy : x.view id = y.view id) (e : Event) :
    (x.next e).view id = (y.next e).view id := by
  by_cases h : e.shapes id = false
  · rw [view_next_of_not_shapes h, view_next_of_not_shapes h, hxy]
  · have h := eq_true_of_ne_false h
    cases e with
    | send now i call =>
      obtain rfl := beq_iff_eq.mp h
      refine (view_send ..).trans (Eq.trans ?_ (view_send ..).symm)
      rw [hxy, terms_congr hrules]
    | perform i c =>
      obtain rfl := beq_iff_eq.mp h
      have hf : ∀ s : Session, ((s.uncounted.perform c).1).uncounted = (s.perform c).1.uncounted :=
        fun s => by rw [Session.uncounted_perform]; rfl
      exact (view_onSession_self hf).trans ((congrArg _ hxy).trans (view_onSession_self hf).symm)
    | dropQueue i =>
      obtain rfl := beq_iff_eq.mp h
      have hf : ∀ s : Session, s.uncounted.dropQueue.uncounted = s.dropQueue.uncounted :=
        fun s => rfl
      exact (view_onSession_self hf).trans ((congrArg _ hxy).trans (view_onSession_self hf).symm)
    | _ => cases h

lemma view_run_filter (es : List Event) (hrules : x.rules = y.rules)
    (hxy : x.view id = y.view id) :
    (x.run es).view id = (y.run (es.filter fun e => e.shapes id)).view id := by
  induction es generalizing x y with
  | nil => exact hxy
  | cons e es ih =>
    have hnext := x.rules_next e
    by_cases h : e.shapes id = true
    · rw [List.filter_cons_of_pos h]
      refine ih ?_ (view_next_congr hrules hxy e)
      rw [hnext, hrules, y.rules_next e]
    · rw [List.filter_cons_of_neg h]
      refine ih (hnext.trans hrules) ?_
      exact (view_next_of_not_shapes (Bool.eq_false_iff.mpr h)).trans hxy

end Calls

end RemoteCall
