/-
# Sending a call as a whole

Sending is defined step by step, so that other tasks can come between.  When none does, it comes to
one of four things: the call is refused before it has a number; it waits; it waited, its session
did not take the frame, and its entry is taken out again; or it is counted and the task breaks off,
since the clock cannot tell its deadline.
-/
import RemoteCall.Proofs.Client.Entries

namespace RemoteCall

lemma Sessions.modify_modify (l : Sessions) (id : String) (f g : Session → Session) :
    (l.modify id f).modify id g = l.modify id (g ∘ f) := by
  simp only [modify, List.map_map]
  congr 1
  funext entry
  by_cases h : entry.1 = id <;> simp [h]

namespace Calls

variable {x : Calls} {s : Session} {now : Duration}

/-! ## The steps -/

section Steps

variable {p : Sending} {n : UInt64}

lemma advance_checked (hp : p.stage = .checked) (hs : x.session? p.session = some s) :
    x.advance now p =
      (x.onSession p.session fun _ => s.takeCorrelation.2,
        { p with stage := .numbered s.nextCorrelation }) := by
  have hs : Named.get? x.sessions p.session = some s := hs
  simp only [advance, hp, Sessions.update, hs, Option.map_some]
  rfl

lemma advance_numbered (hp : p.stage = .numbered n) :
    x.advance now p = (x.onSession p.session Session.countUp, { p with stage := .counted n }) := by
  simp only [advance, hp]

lemma advance_counted (hp : p.stage = .counted n) {deadline : Duration}
    (hdeadline : p.terms.deadline? now = some deadline) :
    x.advance now p =
      ({ x with correlator := x.correlator.enter (p.entry deadline n) },
        { p with stage := .entered n }) := by
  simp only [advance, hp, hdeadline]

lemma advance_counted_of_none (hp : p.stage = .counted n)
    (hdeadline : p.terms.deadline? now = none) :
    x.advance now p = (x, { p with stage := .brokenOff }) := by
  simp only [advance, hp, hdeadline]

lemma advance_entered (hp : p.stage = .entered n) (hs : x.session? p.session = some s)
    (hpass : s.letPass = .ok ()) : x.advance now p = (x, { p with stage := .admitted n }) := by
  simp only [advance, hp, hs, hpass]

lemma advance_entered_refused (hp : p.stage = .entered n) (hs : x.session? p.session = some s)
    {e : Failure} (hpass : s.letPass = .error e) :
    x.advance now p = (x, { p with stage := .refused n e }) := by
  simp only [advance, hp, hs, hpass]

lemma advance_admitted (hp : p.stage = .admitted n) (hs : x.session? p.session = some s)
    {s' : Session} (hpush : s.push (p.frame n) = .ok s') :
    x.advance now p = (x.onSession p.session fun _ => s', { p with stage := .returned }) := by
  simp only [advance, hp, hs, hpush]

lemma advance_admitted_refused (hp : p.stage = .admitted n) (hs : x.session? p.session = some s)
    {e : Failure} (hpush : s.push (p.frame n) = .error e) :
    x.advance now p = (x, { p with stage := .refused n e }) := by
  simp only [advance, hp, hs, hpush]

lemma advance_refused {e : Failure} (hp : p.stage = .refused n e) :
    x.advance now p =
      ((x.resolve { session := p.session, correlation := n } fun _ => .error e).2,
        { p with stage := .returned }) := by
  simp only [advance, hp]

lemma advance_returned (hp : p.stage = .returned) : x.advance now p = (x, p) := by
  simp only [advance, hp]

lemma advance_brokenOff (hp : p.stage = .brokenOff) : x.advance now p = (x, p) := by
  simp only [advance, hp]

lemma advanceBy_succ {k : Nat} {y : Calls} {q : Sending} (h : x.advance now p = (y, q)) :
    advanceBy now (k + 1) x p = advanceBy now k y q := by
  rw [advanceBy, h]

end Steps

/-! ## All steps together -/

variable {id : String} {call : Call}

variable {deadline : Duration} {v : ProtocolVersion × List UInt8}

/-- The entry of a call that gets its number from a session now. -/
def entryFor (x : Calls) (deadline : Duration) (id : String) (s : Session) (call : Call) :
    Pending where
  key := { session := id, correlation := s.nextCorrelation }
  ticket := x.made
  terms := x.correlator.terms call
  deadline

/-- The task that is to send a call. -/
def taskFor (x : Calls) (id : String) (call : Call) (v : ProtocolVersion × List UInt8) :
    Sending where
  ticket := x.made
  session := id
  version := v.1
  payload := v.2
  terms := x.correlator.terms call

/-- The session when it has given a number to a call and counts it. -/
def numbered (s : Session) : Session := s.takeCorrelation.2.countUp

lemma push_numbered (h : s.queueOpen = true) (f : Frame) :
    (numbered s).push f = .ok { numbered s with queue := s.queue ++ [f] } :=
  if_pos h

lemma push_numbered_of_not (h : ¬ s.queueOpen = true) (f : Frame) :
    (numbered s).push f =
      .error (.communicationFailure ("session " ++ s.id ++ " writer has stopped")) :=
  if_neg h

/-- The calls when a session counts a call that does not wait yet. -/
def counted (x : Calls) (id : String) (s : Session) : Calls :=
  { x with
    made := x.made + 1
    sessions := x.sessions.modify id fun _ => numbered s }

/-- The calls when a call on a session waits. -/
def entered (x : Calls) (deadline : Duration) (id : String) (s : Session) (call : Call) : Calls :=
  { x.counted id s with correlator := x.correlator.enter (x.entryFor deadline id s call) }

lemma begin_of_prepare (hs : x.session? id = some s) (h : prepare s call = .ok v) :
    x.begin id call = ({ x with made := x.made + 1 }, some (x.taskFor id call v)) := by
  have hs : Named.get? x.sessions id = some s := hs
  simp only [begin, session?, hs, h]
  rfl

lemma letPass_of_prepare (h : prepare s call = .ok v) : s.letPass = .ok () := by
  have hactive : s.isActive = true := by
    by_contra hnot
    have hnot := Bool.eq_false_iff.mpr hnot
    simp [prepare, hnot] at h
  have hstate : s.state = .active := by simpa [Session.isActive] using hactive
  simp [Session.letPass, hstate, SessionState.isTerminal]

lemma sendTask_of_session?_eq_none (h : x.session? id = none) :
    x.sendTask now id call =
      ({ x with made := x.made + 1 }.report x.made (.error .notConnected), none) := by
  have hid : Named.get? x.sessions id = none := h
  simp only [sendTask, begin, session?, hid]

lemma sendTask_of_prepare_eq_error (hs : x.session? id = some s) {e : Failure}
    (h : prepare s call = .error e) :
    x.sendTask now id call = ({ x with made := x.made + 1 }.report x.made (.error e), none) := by
  have hid : Named.get? x.sessions id = some s := hs
  simp only [sendTask, begin, session?, hid, h]

/-- The first two steps number the call and count it. -/
lemma advanceBy_add_two {p : Sending} (hp : p.stage = .checked)
    (hs : x.session? p.session = some s) (k : Nat) :
    advanceBy now (k + 2) x p =
      advanceBy now k (x.onSession p.session fun _ => numbered s)
        { p with stage := .counted s.nextCorrelation } := by
  rw [advanceBy_succ (advance_checked hp hs), advanceBy_succ (advance_numbered rfl)]
  simp only [onSession, Sessions.modify_modify]
  rfl

/-- A call whose deadline the clock can tell waits, and its session takes the frame or does not. -/
lemma sendTask_of_prepare (hs : x.session? id = some s) (h : prepare s call = .ok v)
    (hdeadline : (x.correlator.terms call).deadline? now = some deadline) :
    x.sendTask now id call =
      (match (numbered s).push (.make v.1 .request s.nextCorrelation v.2) with
        | .ok s' => (x.entered deadline id s call).onSession id fun _ => s'
        | .error e =>
          ((x.entered deadline id s call).resolve (x.entryFor deadline id s call).key
            fun _ => .error e).2,
        some { x.taskFor id call v with stage := .returned }) := by
  have hentered : (x.entered deadline id s call).session? id = some (numbered s) :=
    session?_onSession_self hs fun _ => numbered s
  have hpass : (numbered s).letPass = .ok () := letPass_of_prepare h
  simp only [sendTask, begin_of_prepare hs h]
  -- a session that was active lets the call pass, as no other task comes between
  rw [show sendSteps = 4 + 2 from rfl, advanceBy_add_two rfl hs,
    advanceBy_succ (advance_counted rfl hdeadline),
    advanceBy_succ (advance_entered rfl hentered hpass)]
  rcases hpush : (numbered s).push (.make v.1 .request s.nextCorrelation v.2) with e | s'
  · rw [advanceBy_succ (advance_admitted_refused rfl hentered hpush),
      advanceBy_succ (advance_refused rfl)]
    rfl
  · rw [advanceBy_succ (advance_admitted rfl hentered hpush),
      advanceBy_succ (advance_returned rfl)]
    rfl

/-- A call whose deadline the clock cannot tell is counted, and that is all. -/
lemma sendTask_of_deadline?_eq_none (hs : x.session? id = some s) (h : prepare s call = .ok v)
    (hdeadline : (x.correlator.terms call).deadline? now = none) :
    x.sendTask now id call =
      (x.counted id s, some { x.taskFor id call v with stage := .brokenOff }) := by
  simp only [sendTask, begin_of_prepare hs h]
  rw [show sendSteps = 4 + 2 from rfl, advanceBy_add_two rfl hs,
    advanceBy_succ (advance_counted_of_none rfl hdeadline)]
  simp only [advanceBy, advance_brokenOff]
  rfl

lemma send_of_session?_eq_none (h : x.session? id = none) :
    x.send now id call =
      { x with made := x.made + 1 }.report x.made (.error .notConnected) := by
  rw [send, sendTask_of_session?_eq_none h]

lemma send_of_prepare_eq_error (hs : x.session? id = some s) {e : Failure}
    (h : prepare s call = .error e) :
    x.send now id call = { x with made := x.made + 1 }.report x.made (.error e) := by
  rw [send, sendTask_of_prepare_eq_error hs h]

lemma send_of_prepare (hs : x.session? id = some s) (h : prepare s call = .ok v)
    (hdeadline : (x.correlator.terms call).deadline? now = some deadline) :
    x.send now id call =
      match (numbered s).push (.make v.1 .request s.nextCorrelation v.2) with
      | .ok s' => (x.entered deadline id s call).onSession id fun _ => s'
      | .error e =>
        ((x.entered deadline id s call).resolve (x.entryFor deadline id s call).key
          fun _ => .error e).2 := by
  rw [send, sendTask_of_prepare hs h hdeadline]

lemma send_of_deadline?_eq_none (hs : x.session? id = some s) (h : prepare s call = .ok v)
    (hdeadline : (x.correlator.terms call).deadline? now = none) :
    x.send now id call = x.counted id s := by
  rw [send, sendTask_of_deadline?_eq_none hs h hdeadline]

/-- The ways in which sending a call can come out. -/
lemma send_cases (x : Calls) (now : Duration) (id : String) (call : Call) :
    (∃ e, x.send now id call = { x with made := x.made + 1 }.report x.made (.error e)) ∨
      ∃ s, x.session? id = some s ∧
        (x.send now id call = x.counted id s ∨
          ∃ deadline,
            (∃ e, x.send now id call =
              ((x.entered deadline id s call).resolve (x.entryFor deadline id s call).key
                fun _ => .error e).2) ∨
            ∃ s', x.send now id call =
              (x.entered deadline id s call).onSession id fun _ => s') := by
  rcases hs : x.session? id with _ | s
  · exact Or.inl ⟨.notConnected, send_of_session?_eq_none hs⟩
  rcases hprepare : prepare s call with e | v
  · exact Or.inl ⟨e, send_of_prepare_eq_error hs hprepare⟩
  refine Or.inr ⟨s, rfl, ?_⟩
  rcases hdeadline : (x.correlator.terms call).deadline? now with _ | deadline
  · exact Or.inl (send_of_deadline?_eq_none hs hprepare hdeadline)
  refine Or.inr ⟨deadline, ?_⟩
  rw [send_of_prepare hs hprepare hdeadline]
  rcases (numbered s).push (.make v.1 .request s.nextCorrelation v.2) with e | s'
  · exact Or.inl ⟨e, rfl⟩
  · exact Or.inr ⟨s', rfl⟩

/-- What holds of a call that is refused, of one that is only counted and of one that waits, and is
preserved by taking out an entry and by changing a session, holds after a call was sent. -/
lemma send_induction {P : Calls → Prop}
    (hrefused : ∀ o, P ({ x with made := x.made + 1 }.report x.made o))
    (hcounted : ∀ s, P (x.counted id s))
    (hentered : ∀ deadline s, P (x.entered deadline id s call))
    (hresolve : ∀ y key f, P y → P (y.resolve key f).2)
    (hsession : ∀ y f, P y → P (y.onSession id f)) : P (x.send now id call) := by
  rcases x.send_cases now id call with ⟨e, h⟩ | ⟨s, -, h | ⟨deadline, ⟨e, h⟩ | ⟨s', h⟩⟩⟩ <;> rw [h]
  · exact hrefused _
  · exact hcounted s
  · exact hresolve _ _ _ (hentered deadline s)
  · exact hsession _ _ (hentered deadline s)

lemma made_send (x : Calls) (now : Duration) (id : String) (call : Call) :
    (x.send now id call).made = x.made + 1 :=
  send_induction (P := fun y => y.made = x.made + 1) (fun _ => rfl) (fun _ => rfl)
    (fun _ _ => rfl) (fun y key f hy => (y.made_resolve key f).trans hy) fun _ _ hy => hy

/-- A task breaks off exactly if its call can be sent and the clock cannot tell its deadline. -/
lemma brokenOff?_eq_some_iff {p : Sending} :
    x.brokenOff? now id call = some p ↔
      ∃ s v, x.session? id = some s ∧ prepare s call = .ok v ∧
        (x.correlator.terms call).deadline? now = none ∧
        p = { x.taskFor id call v with stage := .brokenOff } := by
  rcases hs : x.session? id with _ | s
  · rw [brokenOff?, sendTask_of_session?_eq_none hs]
    simp
  rcases hprepare : prepare s call with e | v
  · rw [brokenOff?, sendTask_of_prepare_eq_error hs hprepare]
    simp [hprepare]
  rcases hdeadline : (x.correlator.terms call).deadline? now with _ | deadline
  · rw [brokenOff?, sendTask_of_deadline?_eq_none hs hprepare hdeadline]
    constructor
    · intro hp
      exact ⟨s, v, rfl, hprepare, rfl, (Option.some.inj hp).symm⟩
    · rintro ⟨s', v', hs', hv', -, rfl⟩
      cases hs'
      cases hprepare.symm.trans hv'
      rfl
  · rw [brokenOff?, sendTask_of_prepare hs hprepare hdeadline]
    constructor
    · rintro ⟨⟩
    · rintro ⟨_, _, _, _, hnone, -⟩
      cases hnone

/-- A call is sent. -/
def Event.isSend : Event → Bool
  | .send .. => true
  | _ => false

/-- A call is sent on a session. -/
def Event.isSendOn (id : String) : Event → Bool
  | .send _ i _ => i == id
  | _ => false

/-- What sending keeps, and is preserved by taking out an entry and by changing a session, every
event keeps. -/
lemma next_induction {P : Calls → Prop} (hx : P x)
    (hsend : ∀ now id call, P (x.send now id call))
    (hresolve : ∀ y key f, P y → P (y.resolve key f).2)
    (hsession : ∀ y id f, P y → P (y.onSession id f)) (e : Event) : P (x.next e) := by
  cases e with
  | send now id call => exact hsend now id call
  | answer id frame => exact hresolve _ _ _ hx
  | sweep now => exact clearKeys_induction (fun y key _ => hresolve y key _) hx
  | fail id reason => exact clearKeys_induction (fun y key _ => hresolve y key _) hx
  | perform id c => exact hsession _ _ _ hx
  | dropQueue id => exact hsession _ _ _ hx

lemma made_next (x : Calls) (e : Event) : (x.next e).made = x.made + e.isSend.toNat := by
  cases e with
  | send now id call => exact x.made_send now id call
  | answer id frame => exact x.made_resolve _ _
  | sweep now => exact x.made_clearKeys _ _ _
  | fail id reason => exact x.made_clearKeys _ _ _
  | perform id c => rfl
  | dropQueue id => rfl

end Calls

end RemoteCall
