/-
# Calls do not disturb each other

All calls of a client wait in one list, over all of its sessions.  What becomes of one of them is
still decided by the first event that is addressed to it, and by nothing else: events for other
calls may come, go or change their order.  A call that waits is left alone by all that is not
addressed to it, as long as the numbers of its session have not come round to its own again.
-/
import RemoteCall.Proofs.Client.Views

namespace RemoteCall

namespace Calls

variable {x y : Calls} {id : String} {now deadline : Duration} {call : Call} {p : Pending}

/-! ## What holds of all calls at any time -/

/-- Entries have different places, and whatever is known of a call is known of one that was made. -/
structure Orderly (x : Calls) : Prop where
  keyed : x.Keyed
  waiting : ∀ p ∈ x.correlator.pending, p.ticket < x.made
  reported : ∀ r ∈ x.reported, r.1 < x.made

lemma Orderly.onSession (hx : x.Orderly) (id : String) (f : Session → Session) :
    (x.onSession id f).Orderly :=
  ⟨hx.keyed, hx.waiting, hx.reported⟩

lemma Orderly.resolve (hx : x.Orderly) (key : CallKey) (f : Pending → Outcome) :
    (x.resolve key f).2.Orderly := by
  have hkeyed := hx.keyed.resolve key f
  rcases x.resolve_cases key f with ⟨hy, -⟩ | ⟨p, hp, -, hy⟩
  · rwa [hy]
  · rw [hy] at hkeyed ⊢
    refine ⟨hkeyed, fun q hq => hx.waiting q (List.mem_of_mem_filter hq), ?_⟩
    intro r hr
    rcases List.mem_append.mp hr with hr | hr
    · exact hx.reported r hr
    · rw [List.mem_singleton.mp hr]
      exact hx.waiting p hp

/-- A call that is refused at once leaves all others as they are. -/
lemma Orderly.refused (hx : x.Orderly) (o : Outcome) :
    ({ x with made := x.made + 1 }.report x.made o).Orderly := by
  refine ⟨hx.keyed, fun q hq => Nat.lt_succ_of_lt (hx.waiting q hq), ?_⟩
  intro r hr
  rcases List.mem_append.mp hr with hr | hr
  · exact Nat.lt_succ_of_lt (hx.reported r hr)
  · rw [List.mem_singleton.mp hr]
    exact Nat.lt_succ_self x.made

/-- A call that is only counted leaves all others as they are. -/
lemma Orderly.counted (hx : x.Orderly) (id : String) (s : Session) : (x.counted id s).Orderly :=
  ⟨hx.keyed, fun q hq => Nat.lt_succ_of_lt (hx.waiting q hq),
    fun r hr => Nat.lt_succ_of_lt (hx.reported r hr)⟩

lemma Orderly.entered (hx : x.Orderly) (deadline : Duration) (id : String) (s : Session)
    (call : Call) : (x.entered deadline id s call).Orderly := by
  refine ⟨hx.keyed.enter _, ?_, fun r hr => Nat.lt_succ_of_lt (hx.reported r hr)⟩
  intro q hq
  rcases List.mem_append.mp hq with hq | hq
  · exact Nat.lt_succ_of_lt (hx.waiting q (List.mem_of_mem_filter hq))
  · rw [List.mem_singleton.mp hq]
    exact Nat.lt_succ_self x.made

lemma Orderly.send (hx : x.Orderly) : (x.send now id call).Orderly :=
  send_induction hx.refused (hx.counted id) (fun deadline s => hx.entered deadline id s call)
    (fun _ key f hy => hy.resolve key f) fun _ f hy => hy.onSession id f

lemma Orderly.next (hx : x.Orderly) (e : Event) : (x.next e).Orderly :=
  next_induction hx (fun _ _ _ => hx.send) (fun _ key f hy => hy.resolve key f)
    (fun _ id f hy => hy.onSession id f) e

lemma Orderly.run (hx : x.Orderly) (es : List Event) : (x.run es).Orderly := by
  induction es generalizing x with
  | nil => exact hx
  | cons e es ih => exact ih (hx.next e)

/-! ## Room before a number comes round again -/

/-- The number of the next call on a session. -/
def nextOn (x : Calls) (id : String) : Option UInt64 := (x.view id).map Session.nextCorrelation

lemma nextOn_of_session? {s : Session} (h : x.session? id = some s) :
    x.nextOn id = some s.nextCorrelation := by
  rw [nextOn, view, h]
  rfl

lemma nextOn_next_of_not_send {e : Event} (h : e.isSendOn id = false) :
    (x.next e).nextOn id = x.nextOn id := by
  by_cases hshapes : e.shapes id = false
  · rw [nextOn, view_next_of_not_shapes hshapes, nextOn]
  have hshapes := eq_true_of_ne_false hshapes
  cases e with
  | perform i c =>
    obtain rfl := beq_iff_eq.mp hshapes
    show Option.map _ ((x.onSession i fun s => (s.perform c).1).view i) = _
    rw [view, session?_onSession, if_pos rfl, nextOn, view]
    rcases x.session? i with _ | s
    · rfl
    · exact congrArg some (s.counters_perform c).1
  | dropQueue i =>
    obtain rfl := beq_iff_eq.mp hshapes
    show Option.map _ ((x.onSession i Session.dropQueue).view i) = _
    rw [view, session?_onSession, if_pos rfl, nextOn, view]
    cases x.session? i <;> rfl
  | send now i call => exact absurd hshapes (Bool.eq_false_iff.mp h)
  | _ => cases hshapes

lemma nextCorrelation_sentOn {s : Session} {v : ProtocolVersion × List UInt8}
    (h : prepare s call = .ok v) (deadline : Option Duration) :
    (sentOn deadline s call).nextCorrelation = s.nextCorrelation + 1 := by
  rcases deadline with _ | deadline
  · rw [sentOn, h]
    rfl
  · rw [sentOn_of_prepare h]
    by_cases hopen : s.queueOpen = true <;>
      simp [Session.push, numbered, Session.takeCorrelation, Session.countUp, hopen]

lemma nextOn_send (x : Calls) (now : Duration) (id : String) (call : Call) :
    (x.send now id call).nextOn id = x.nextOn id ∨
      (x.send now id call).nextOn id = (x.nextOn id).map (· + 1) := by
  rw [nextOn, view_send, nextOn]
  rcases x.view id with _ | s
  · exact Or.inl rfl
  rcases h : prepare s call with e | v
  · left
    rw [Option.map_some, sentOn, h]
    rfl
  · right
    exact congrArg some (nextCorrelation_sentOn h _)

/-- The session of a place can number at least `r` more calls before it gives the number of the
place again. -/
def Room (x : Calls) (key : CallKey) (r : Nat) : Prop :=
  ∀ n, x.nextOn key.session = some n →
    ∃ d, 0 < d ∧ d + r ≤ 2 ^ 64 ∧ n = key.correlation + UInt64.ofNat d

lemma Room.ne {key : CallKey} {r : Nat} (h : x.Room key r) (hr : 0 < r) {s : Session}
    (hs : x.session? id = some s) : key ≠ { session := id, correlation := s.nextCorrelation } := by
  rintro rfl
  obtain ⟨d, hd, hdr, hn⟩ := h s.nextCorrelation (nextOn_of_session? hs)
  have hn := congrArg UInt64.toNat hn
  rw [UInt64.toNat_add, UInt64.toNat_ofNat'] at hn
  dsimp only at hn
  have := s.nextCorrelation.toNat_lt
  omega

lemma Room.next {key : CallKey} {e : Event} {es : List Event}
    (h : x.Room key ((e :: es).countP (Event.isSendOn key.session))) :
    (x.next e).Room key (es.countP (Event.isSendOn key.session)) := by
  intro n hn
  by_cases hsend : e.isSendOn key.session = true
  · rw [List.countP_cons_of_pos hsend] at h
    obtain ⟨now, call, rfl⟩ : ∃ now call, e = .send now key.session call := by
      cases e with
      | send now i call => exact ⟨now, call, by rw [beq_iff_eq.mp hsend]⟩
      | _ => cases hsend
    rcases x.nextOn_send now key.session call with hnext | hnext
    · obtain ⟨d, hd, hdr, rfl⟩ := h n (hnext ▸ hn)
      exact ⟨d, hd, by omega, rfl⟩
    · obtain ⟨m, hm, rfl⟩ := Option.map_eq_some_iff.mp (hnext ▸ hn)
      obtain ⟨d, hd, hdr, rfl⟩ := h m hm
      refine ⟨d + 1, by omega, by omega, ?_⟩
      rw [UInt64.ofNat_add, UInt64.add_assoc]
      rfl
  · rw [List.countP_cons_of_neg hsend] at h
    rw [nextOn_next_of_not_send (Bool.eq_false_iff.mpr hsend)] at hn
    exact h n hn

/-! ## A call that waits, and one that has ended -/

section Fate

variable {t : Nat} {o : Outcome}

lemma Waits.onSession (h : x.Waits p) (id : String) (f : Session → Session) :
    (x.onSession id f).Waits p :=
  ⟨h.entry, h.silent⟩

lemma Ended.onSession (h : x.Ended t o) (id : String) (f : Session → Session) :
    (x.onSession id f).Ended t o :=
  ⟨h.gone, h.outcome⟩

lemma Waits.refused (h : x.Waits p) (hp : p.ticket < x.made) (o : Outcome) :
    ({ x with made := x.made + 1 }.report x.made o).Waits p :=
  ⟨h.entry, (outcomesOf_report_of_ne (Nat.ne_of_gt hp) o).trans h.silent⟩

lemma Ended.refused (h : x.Ended t o) (ht : t < x.made) (o' : Outcome) :
    ({ x with made := x.made + 1 }.report x.made o').Ended t o :=
  ⟨h.gone, (outcomesOf_report_of_ne (Nat.ne_of_gt ht) o').trans h.outcome⟩

/-- The entries of an earlier call when another call waits. -/
lemma entriesOf_entered (ht : t < x.made) (deadline : Duration) (s : Session) :
    (x.entered deadline id s call).entriesOf t =
      (x.entriesOf t).filter fun p => p.key != (x.entryFor deadline id s call).key := by
  have hne : ((x.entryFor deadline id s call).ticket == t) = false :=
    beq_eq_false_iff_ne.mpr (Nat.ne_of_gt ht)
  show List.filter _ (_ ++ [_]) = _
  rw [List.filter_append, List.filter_singleton, hne, Bool.cond_false, List.append_nil]
  exact List.filter_comm _ _ _

lemma Waits.entered (h : x.Waits p) (hp : p.ticket < x.made) {s : Session}
    (hkey : p.key ≠ (x.entryFor deadline id s call).key) :
    (x.entered deadline id s call).Waits p := by
  refine ⟨?_, h.silent⟩
  rw [entriesOf_entered hp, h.entry, List.filter_singleton, bne_iff_ne.mpr hkey, Bool.cond_true]

lemma Ended.entered (h : x.Ended t o) (ht : t < x.made) (deadline : Duration) (s : Session) :
    (x.entered deadline id s call).Ended t o := by
  refine ⟨?_, h.outcome⟩
  rw [entriesOf_entered ht, h.gone, List.filter_nil]

lemma Ended.send (ht : t < x.made) (h : x.Ended t o) : (x.send now id call).Ended t o :=
  send_induction (P := fun y => y.Ended t o) (h.refused ht) (fun _ => ⟨h.gone, h.outcome⟩)
    (h.entered ht) (fun _ key f hy => hy.resolve key f) fun _ f hy => hy.onSession id f

lemma Ended.next (ht : t < x.made) (h : x.Ended t o) (e : Event) : (x.next e).Ended t o :=
  next_induction (P := fun y => y.Ended t o) h (fun _ _ _ => h.send ht)
    (fun _ key f hy => hy.resolve key f) (fun _ id f hy => hy.onSession id f) e

lemma Ended.run (ht : t < x.made) (h : x.Ended t o) (es : List Event) : (x.run es).Ended t o := by
  induction es generalizing x with
  | nil => exact h
  | cons e es ih =>
    refine ih ?_ (h.next ht e)
    rw [made_next]
    omega

end Fate

/-! ## Events addressed to a call -/

/-- An event may end the wait of a call: it is an answer on its session with its number, or a time
that is not before its deadline, or the end of its session. -/
def Event.isAddressedTo (p : Pending) : Event → Bool
  | .answer id frame => p.key == { session := id, correlation := frame.correlation }
  | .sweep now => decide (p.deadline.nanos ≤ now.nanos)
  | .fail id _ => p.key.session == id
  | _ => false

/-- The outcome that an event gives to a call that it ends. -/
def Event.outcome? (c : Correlator) (p : Pending) : Event → Option Outcome
  | .answer _ frame => some (c.outcomeOf p.terms frame)
  | .sweep _ => some (.error (.timeout p.terms.allowed))
  | .fail id reason =>
    some (.error (.communicationFailure ("session " ++ id ++ " closed: " ++ reason)))
  | _ => none

/-- The outcome that an event addressed to a call has to give to it: a result is read on the terms
on which the call was sent, a fault is read as it stands, and any other answer breaks the
protocol. -/
inductive Event.Gives (registry : Registry) (p : Pending) : Event → Outcome → Prop
  /-- The answer is a result. -/
  | result {id : String} {answer : Frame} (h : answer.type = .responseOk) :
      Gives registry p (.answer id answer)
        (Returned.decode registry p.terms.options p.terms.returns answer.payload)
  /-- The answer is a fault. -/
  | fault {id : String} {answer : Frame} {f : Fault} (h : answer.type = .responseFault)
      (hf : Fault.decode answer.payload = .ok f) :
      Gives registry p (.answer id answer) (.error (.fault f))
  /-- The answer should be a fault, and cannot be read. -/
  | noFault {id : String} {answer : Frame} {e : Failure} (h : answer.type = .responseFault)
      (he : Fault.decode answer.payload = .error e) :
      Gives registry p (.answer id answer) (.error e)
  /-- The answer is none. -/
  | noAnswer {id : String} {answer : Frame} (hok : answer.type ≠ .responseOk)
      (hfault : answer.type ≠ .responseFault) :
      Gives registry p (.answer id answer)
        (.error (.protocol (answer.type.name ++ " is not a response")))
  /-- The time is up. -/
  | expired {now : Duration} : Gives registry p (.sweep now) (.error (.timeout p.terms.allowed))
  /-- The session is lost. -/
  | lost {id reason : String} :
      Gives registry p (.fail id reason)
        (.error (.communicationFailure ("session " ++ id ++ " closed: " ++ reason)))

section Gives

variable {registry : Registry} {answer : Frame} {o : Outcome}

lemma Event.Gives.eq_decode (h : (Event.answer id answer).Gives registry p o)
    (htype : answer.type = .responseOk) :
    o = Returned.decode registry p.terms.options p.terms.returns answer.payload := by
  cases h with
  | result h => rfl
  | fault h hf => cases htype.symm.trans h
  | noFault h he => cases htype.symm.trans h
  | noAnswer hok hfault => exact absurd htype hok

lemma Event.Gives.eq_fault (h : (Event.answer id answer).Gives registry p o)
    (htype : answer.type = .responseFault) {f : Fault} (hf : Fault.decode answer.payload = .ok f) :
    o = .error (.fault f) := by
  cases h with
  | result h => cases htype.symm.trans h
  | fault h hf' =>
    cases hf.symm.trans hf'
    rfl
  | noFault h he => cases hf.symm.trans he
  | noAnswer hok hfault => exact absurd htype hfault

end Gives

lemma Event.gives_of_outcome? {c : Correlator} {e : Event} {o : Outcome}
    (h : e.outcome? c p = some o) : e.Gives c.registry p o := by
  cases e with
  | answer id answer =>
    obtain rfl : c.outcomeOf p.terms answer = o := Option.some.inj h
    rw [Correlator.outcomeOf]
    split
    · next htype => exact .result htype
    · next htype =>
      split
      · next hf => exact .fault htype hf
      · next he => exact .noFault htype he
    · next hok hfault => exact .noAnswer hok hfault
  | sweep now =>
    obtain rfl := Option.some.inj h
    exact .expired
  | fail id reason =>
    obtain rfl := Option.some.inj h
    exact .lost
  | _ => cases h

/-- An event that is addressed to a call gives it an outcome. -/
lemma Event.exists_outcome? (c : Correlator) {e : Event} (he : e.isAddressedTo p = true) :
    ∃ o, e.outcome? c p = some o := by
  cases e with
  | answer id answer => exact ⟨_, rfl⟩
  | sweep now => exact ⟨_, rfl⟩
  | fail id reason => exact ⟨_, rfl⟩
  | _ => cases he

lemma Waits.next_of_not_addressed (hx : x.Orderly) (h : x.Waits p) {e : Event}
    (he : e.isAddressedTo p = false)
    (hkey : e.isSendOn p.key.session = true → ∀ s, x.session? p.key.session = some s →
      p.key.correlation ≠ s.nextCorrelation) : (x.next e).Waits p := by
  have hp : p.ticket < x.made := hx.waiting p h.mem
  cases e with
  | send now id call =>
    show (x.send now id call).Waits p
    rcases x.send_cases now id call with ⟨e, hsend⟩ | ⟨s, hs, hsend⟩
    · rw [hsend]
      exact h.refused hp _
    rcases hsend with hsend | ⟨deadline, hsend⟩
    · rw [hsend]
      exact ⟨h.entry, h.silent⟩
    -- the later call gets another number, if it is on the same session at all
    have hne : p.key ≠ (x.entryFor deadline id s call).key := by
      intro heq
      obtain rfl : p.key.session = id := congrArg CallKey.session heq
      exact hkey (beq_self_eq_true _) s hs (congrArg CallKey.correlation heq)
    have hentered : (x.entered deadline id s call).Waits p := h.entered hp hne
    rcases hsend with ⟨e, hsend⟩ | ⟨s', hsend⟩
    · rw [hsend]
      exact hentered.resolve_of_ne hne _
    · rw [hsend]
      exact hentered.onSession _ _
  | answer id frame => exact h.resolve_of_ne (beq_eq_false_iff_ne.mp he) _
  | sweep now => exact h.clearKeys_of_notMem (hx.keyed.key_notMem h.mem he)
  | fail id reason => exact h.clearKeys_of_notMem (hx.keyed.key_notMem h.mem he)
  | perform id c => exact h.onSession _ _
  | dropQueue id => exact h.onSession _ _

lemma Waits.next_of_addressed (hx : x.Orderly) (h : x.Waits p) {e : Event}
    (he : e.isAddressedTo p = true) :
    ∃ o, e.outcome? x.correlator p = some o ∧ (x.next e).Ended p.ticket o := by
  cases e with
  | answer id frame =>
    obtain hkey : p.key = { session := id, correlation := frame.correlation } := beq_iff_eq.mp he
    refine ⟨_, rfl, ?_⟩
    have hended := h.resolve hx.keyed fun q => x.correlator.outcomeOf q.terms frame
    rwa [hkey] at hended
  | sweep now =>
    refine ⟨_, rfl, h.clearKeys_of_mem hx.keyed ?_⟩
    exact List.mem_map_of_mem (List.mem_filter.mpr ⟨h.mem, he⟩)
  | fail id reason =>
    obtain rfl := beq_iff_eq.mp he
    refine ⟨_, rfl, h.clearKeys_of_mem hx.keyed ?_⟩
    exact List.mem_map_of_mem (List.mem_filter.mpr ⟨h.mem, he⟩)
  | _ => cases he

lemma Event.outcome?_congr (h : y.rules = x.rules) (p : Pending) (e : Event) :
    e.outcome? y.correlator p = e.outcome? x.correlator p := by
  cases e with
  | answer id frame =>
    show some (y.rules.outcomeOf p.terms frame) = some (x.rules.outcomeOf p.terms frame)
    rw [h]
  | _ => rfl

/-- The first event that is addressed to a call decides what becomes of it. -/
lemma Waits.outcomesOf_run (hx : x.Orderly) (h : x.Waits p) (es : List Event)
    (hroom : x.Room p.key
      ((es.takeWhile fun e => !e.isAddressedTo p).countP (Event.isSendOn p.key.session))) :
    (x.run es).outcomesOf p.ticket =
      ((es.find? (Event.isAddressedTo p)).bind (Event.outcome? x.correlator p)).toList := by
  induction es generalizing x with
  | nil => exact h.silent
  | cons e es ih =>
    by_cases he : e.isAddressedTo p = true
    · -- from here on nothing changes for the call
      obtain ⟨o, ho, hended⟩ := h.next_of_addressed hx he
      have ht : p.ticket < (x.next e).made := by
        rw [made_next]
        exact Nat.lt_add_right _ (hx.waiting p h.mem)
      rw [List.find?_cons_of_pos he, Option.bind_some, ho]
      exact (hended.run ht es).outcome
    · have he' := Bool.eq_false_iff.mpr he
      rw [List.takeWhile_cons_of_pos (by rw [he', Bool.not_false])] at hroom
      have hwaits := h.next_of_not_addressed hx he' fun hsend s hs => by
        have hne := hroom.ne (by rw [List.countP_cons_of_pos hsend]; omega) hs
        exact fun hn => hne (by rw [← hn])
      have hrun := ih (hx.next e) hwaits hroom.next
      rw [List.find?_cons_of_neg he]
      refine hrun.trans ?_
      rw [funext (Event.outcome?_congr (x.rules_next e) p)]

/-! ## A number that is handed out again -/

lemma Lost.resolve {t : Nat} (h : x.Lost t) (key : CallKey) (f : Pending → Outcome) :
    (x.resolve key f).2.Lost t := by
  rcases x.resolve_cases key f with ⟨hy, -⟩ | ⟨q, hq, -, hy⟩
  · rwa [hy]
  · have ht : q.ticket ≠ t := by
      intro ht
      have hmem : q ∈ x.entriesOf t := mem_entriesOf.mpr ⟨hq, ht⟩
      rw [h.gone] at hmem
      exact List.not_mem_nil hmem
    rw [hy]
    constructor
    · refine (entriesOf_erase x key t).trans ?_
      rw [h.gone, List.filter_nil]
    · exact (outcomesOf_report_of_ne ht _).trans h.silent

lemma Lost.send {t : Nat} (ht : t < x.made) (h : x.Lost t) : (x.send now id call).Lost t :=
  send_induction (P := fun y => y.Lost t)
    (fun o => ⟨h.gone, (outcomesOf_report_of_ne (Nat.ne_of_gt ht) o).trans h.silent⟩)
    (fun _ => ⟨h.gone, h.silent⟩)
    (fun _ s => ⟨by rw [entriesOf_entered ht, h.gone, List.filter_nil], h.silent⟩)
    (fun _ key f hy => hy.resolve key f) fun _ _ hy => ⟨hy.gone, hy.silent⟩

lemma Lost.run {t : Nat} (ht : t < x.made) (h : x.Lost t) (es : List Event) :
    (x.run es).Lost t := by
  induction es generalizing x with
  | nil => exact h
  | cons e es ih =>
    refine ih ?_ ?_
    · rw [made_next]
      omega
    · exact next_induction (P := fun y => y.Lost t) h (fun _ _ _ => h.send ht)
        (fun _ key f hy => hy.resolve key f) (fun _ _ _ hy => ⟨hy.gone, hy.silent⟩) e

/-- A call whose number its session hands out again while it waits is lost for good, whatever
happens, if the later call comes to wait as well: the entry of that one puts out its own. -/
theorem Waits.lost_of_number (hx : x.Orderly) (h : x.Waits p) {s : Session}
    {v : ProtocolVersion × List UInt8} (hs : x.session? p.key.session = some s)
    (hprepare : prepare s call = .ok v) (hnumber : s.nextCorrelation = p.key.correlation)
    (hdeadline : (x.correlator.terms call).deadline? now = some deadline) (es : List Event) :
    ((x.send now p.key.session call).run es).Lost p.ticket := by
  have ht : p.ticket < x.made := hx.waiting p h.mem
  have hkey : (x.entryFor deadline p.key.session s call).key = p.key := by
    rw [entryFor, hnumber]
  have hentered : (x.entered deadline p.key.session s call).Lost p.ticket := by
    refine ⟨?_, h.silent⟩
    rw [entriesOf_entered ht, h.entry, hkey, List.filter_singleton, bne_self_eq_false,
      Bool.cond_false]
  have hsend : (x.send now p.key.session call).Lost p.ticket := by
    rw [send_of_prepare hs hprepare hdeadline]
    rcases (numbered s).push (.make v.1 .request s.nextCorrelation v.2) with e | s'
    · exact hentered.resolve _ _
    · exact ⟨hentered.gone, hentered.silent⟩
  refine hsend.run ?_ es
  rw [made_send]
  exact Nat.lt_succ_of_lt ht

/-! ## Calls that are registered -/

/-- Sending a call leaves an entry of it. -/
def Registers (x : Calls) (now : Duration) (id : String) (call : Call) (p : Pending) : Prop :=
  p ∈ (x.send now id call).correlator.pending ∧ p.ticket = x.made

instance : Decidable (x.Registers now id call p) := inferInstanceAs (Decidable (_ ∧ _))

lemma registers_iff (hx : x.Orderly) :
    x.Registers now id call p ↔
      ∃ s v deadline, x.session? id = some s ∧ prepare s call = .ok v ∧
        (x.correlator.terms call).deadline? now = some deadline ∧ s.queueOpen = true ∧
        p = x.entryFor deadline id s call := by
  -- an entry that was there before belongs to an earlier call
  have hold : p ∈ x.correlator.pending → p.ticket ≠ x.made :=
    fun hp => Nat.ne_of_lt (hx.waiting p hp)
  have hentered : ∀ deadline s, p ∈ (x.entered deadline id s call).correlator.pending →
      p.ticket = x.made → p = x.entryFor deadline id s call := by
    intro deadline s hp ht
    rcases List.mem_append.mp hp with hp | hp
    · exact absurd ht (hold (List.mem_of_mem_filter hp))
    · exact List.mem_singleton.mp hp
  rcases hs : x.session? id with _ | s
  · rw [Registers, send_of_session?_eq_none hs]
    constructor
    · rintro ⟨hp, ht⟩
      exact absurd ht (hold hp)
    · rintro ⟨s, v, deadline, hs', -⟩
      cases hs'
  rcases hprepare : prepare s call with e | v
  · rw [Registers, send_of_prepare_eq_error hs hprepare]
    constructor
    · rintro ⟨hp, ht⟩
      exact absurd ht (hold hp)
    · rintro ⟨s', v, deadline, hs', hv, -⟩
      cases hs'
      rw [hprepare] at hv
      cases hv
  rcases hdeadline : (x.correlator.terms call).deadline? now with _ | deadline
  · rw [Registers, send_of_deadline?_eq_none hs hprepare hdeadline]
    constructor
    · rintro ⟨hp, ht⟩
      exact absurd ht (hold hp)
    · rintro ⟨s', v', deadline, -, -, hnone, -⟩
      cases hnone
  by_cases hopen : s.queueOpen = true
  · rw [Registers, send_of_prepare hs hprepare hdeadline, push_numbered hopen]
    constructor
    · rintro ⟨hp, ht⟩
      exact ⟨s, v, deadline, rfl, hprepare, rfl, hopen, hentered deadline s hp ht⟩
    · rintro ⟨s', v', deadline', hs', -, hsome, -, rfl⟩
      cases hs'
      cases hsome
      exact ⟨List.mem_append_right _ (List.mem_singleton_self _), rfl⟩
  · rw [Registers, send_of_prepare hs hprepare hdeadline, push_numbered_of_not hopen]
    constructor
    · rintro ⟨hp, ht⟩
      obtain ⟨hp, hne⟩ := mem_pending_resolve hp
      exact absurd (congrArg Pending.key (hentered deadline s hp ht)) hne
    · rintro ⟨s', v', deadline', hs', -, -, hopen', -⟩
      cases hs'
      exact absurd hopen' hopen

lemma Registers.waits (hx : x.Orderly) (h : x.Registers now id call p) :
    (x.send now id call).Waits p := by
  obtain ⟨s, v, deadline, hs, hprepare, hdeadline, hopen, rfl⟩ := (registers_iff hx).mp h
  rw [send_of_prepare hs hprepare hdeadline, push_numbered hopen]
  constructor
  · show List.filter _ (_ ++ [_]) = _
    rw [List.filter_append, List.filter_singleton, List.filter_eq_nil_iff.mpr]
    · simp
    · intro q hq
      have hlt : q.ticket < x.made := hx.waiting q (List.mem_of_mem_filter hq)
      exact fun ht => Nat.ne_of_lt hlt (beq_iff_eq.mp ht)
  · show List.map _ (List.filter _ x.reported) = []
    rw [List.filter_eq_nil_iff.mpr, List.map_nil]
    intro r hr
    exact fun ht => Nat.ne_of_lt (hx.reported r hr) (beq_iff_eq.mp ht)

lemma Registers.room (hx : x.Orderly) (h : x.Registers now id call p) {r : Nat} (hr : r < 2 ^ 64) :
    (x.send now id call).Room p.key r := by
  obtain ⟨s, v, deadline, hs, hprepare, -, -, rfl⟩ := (registers_iff hx).mp h
  have hnext : (x.send now id call).nextOn id = some (s.nextCorrelation + 1) := by
    rw [nextOn, view_send, view, hs, Option.map_some, Option.map_some, Option.map_some,
      uncounted_sentOn]
    exact congrArg some (nextCorrelation_sentOn hprepare _)
  intro n hn
  cases hnext.symm.trans hn
  exact ⟨1, Nat.one_pos, by omega, rfl⟩

/-- Whether and how a call is registered depends on its session and on what is the same for all
calls; only the number that it is reported under depends on the calls made before. -/
lemma Registers.congr (hx : x.Orderly) (hy : y.Orderly) (hview : y.view id = x.view id)
    (hrules : y.rules = x.rules) (h : x.Registers now id call p) :
    y.Registers now id call { p with ticket := y.made } := by
  obtain ⟨s, v, deadline, hs, hprepare, hdeadline, hopen, rfl⟩ := (registers_iff hx).mp h
  rw [view, view, hs, Option.map_some] at hview
  obtain ⟨s', hs', hss⟩ := Option.map_eq_some_iff.mp hview
  refine (registers_iff hy).mpr ⟨s', v, deadline, hs', ?_, ?_, ?_, ?_⟩
  · show prepare s'.uncounted call = _
    rw [hss]
    exact hprepare
  · rw [terms_congr hrules]
    exact hdeadline
  · show s'.uncounted.queueOpen = true
    rw [hss]
    exact hopen
  · have hnext : s'.uncounted.nextCorrelation = s.nextCorrelation := by
      rw [hss]
      rfl
    simp only [entryFor, terms_congr hrules]
    rw [← hnext]
    rfl

lemma IsFresh.orderly (hx : x.IsFresh) : x.Orderly := by
  refine ⟨?_, ?_, ?_⟩
  · rw [Keyed, hx.pending]
    exact List.nodup_nil
  · rw [hx.pending]
    exact fun p hp => absurd hp List.not_mem_nil
  · rw [hx.reported]
    exact fun r hr => absurd hr List.not_mem_nil

lemma Registers.outcomesOf_run (hx : x.Orderly) (h : x.Registers now id call p) (es : List Event)
    (hroom : (es.takeWhile fun e => !e.isAddressedTo p).countP (Event.isSendOn id) < 2 ^ 64) :
    ((x.send now id call).run es).outcomesOf p.ticket =
      ((es.find? (Event.isAddressedTo p)).bind (Event.outcome? x.correlator p)).toList := by
  have hid : p.key.session = id := by
    obtain ⟨s, v, deadline, -, -, -, -, rfl⟩ := (registers_iff hx).mp h
    rfl
  have hrun := (h.waits hx).outcomesOf_run hx.send es (h.room hx (by rwa [hid]))
  have houtcome : Event.outcome? (x.send now id call).correlator p =
      Event.outcome? x.correlator p :=
    funext (Event.outcome?_congr (x.rules_next (.send now id call)) p)
  rwa [houtcome] at hrun

/-- **Calls do not disturb each other**: the outcome of a call that was registered is the one that
the first later event addressed to it gives, on the terms on which it was sent, and there is none as
long as there is no such event; and it is the same in any other run in which the same events shaped
the session of the call before it was sent, and the same events were addressed to it afterwards.
Numbers are words: a call that still waits when `2 ^ 64` others have been numbered on its session is
lost, as `Waits.lost_of_number` says. -/
theorem outcome_of_first_addressed (hx : x.IsFresh) {before after : List Event}
    (h : (x.run before).Registers now id call p)
    (hroom : (after.takeWhile fun e => !e.isAddressedTo p).countP (Event.isSendOn id) < 2 ^ 64) :
    p.key.session = id ∧
      p.terms =
        { operation := call.request.key
          allowed := call.timeout.getD x.correlator.callTimeout
          returns :=
            (x.correlator.registry.operation? call.request.key).bind OperationDecl.returns
          options :=
            (call.strictEnums.map fun strictEnums => { strictEnums }).getD x.correlator.options } ∧
      p.deadline.nanos = now.nanos + p.terms.allowed.nanos ∧
      (∀ e, after.find? (Event.isAddressedTo p) = some e →
        ∃ o, e.Gives x.correlator.registry p o ∧
          (x.run (before ++ .send now id call :: after)).outcomesOf p.ticket = [o]) ∧
      (after.find? (Event.isAddressedTo p) = none →
        (x.run (before ++ .send now id call :: after)).outcomesOf p.ticket = []) ∧
      ∀ before' after' : List Event,
        before'.filter (Event.shapes id) = before.filter (Event.shapes id) →
        after'.filter (Event.isAddressedTo p) = after.filter (Event.isAddressedTo p) →
        (after'.takeWhile fun e => !e.isAddressedTo p).countP (Event.isSendOn id) < 2 ^ 64 →
        (x.run (before' ++ .send now id call :: after')).outcomesOf (x.run before').made =
          (x.run (before ++ .send now id call :: after)).outcomesOf p.ticket := by
  have hrun : ∀ before after : List Event, x.run (before ++ .send now id call :: after) =
      ((x.run before).send now id call).run after := fun before after => x.run_append before _
  have hbefore := fun before => hx.orderly.run before
  have hrules := fun before => x.rules_run before
  have houtcome : ∀ before, Event.outcome? (x.run before).correlator p =
      Event.outcome? x.correlator p := fun before => funext (Event.outcome?_congr (hrules before) p)
  have hfirst := h.outcomesOf_run (hbefore before) after hroom
  rw [houtcome, ← hrun] at hfirst
  obtain ⟨s, v, deadline, -, -, hdeadline, -, hp⟩ := (registers_iff (hbefore before)).mp h
  have hterms : p.terms = x.correlator.terms call := by
    rw [hp]
    exact terms_congr (hrules before) call
  refine ⟨by rw [hp]; rfl, hterms, ?_, ?_, ?_, ?_⟩
  · rw [hp]
    exact Duration.nanos_of_later? hdeadline
  · intro e he
    obtain ⟨o, ho⟩ := Event.exists_outcome? x.correlator (List.find?_some he)
    refine ⟨o, Event.gives_of_outcome? ho, ?_⟩
    rw [hfirst, he, Option.bind_some, ho, Option.toList_some]
  · intro hnone
    rw [hfirst, hnone, Option.bind_none, Option.toList_none]
  intro before' after' hbefore' hafter' hroom'
  -- the session of the call is in the same state in both runs, but for its count
  have hview : (x.run before').view id = (x.run before).view id := by
    rw [view_run_filter before' rfl rfl, hbefore', ← view_run_filter before rfl rfl]
  have h' := h.congr (hbefore before) (hbefore before') hview
    ((hrules before').trans (hrules before).symm)
  -- the number that an outcome is reported under does not show in what is addressed to the call
  have haddressed : ∀ t, Event.isAddressedTo { p with ticket := t } = Event.isAddressedTo p :=
    fun t => funext fun e => by cases e <;> rfl
  have hgiven : ∀ c t, Event.outcome? c { p with ticket := t } = Event.outcome? c p :=
    fun c t => funext fun e => by cases e <;> rfl
  have hsecond := h'.outcomesOf_run (hbefore before') after' (by rwa [haddressed])
  rw [haddressed, hgiven, houtcome, ← hrun] at hsecond
  rw [hfirst, ← List.head?_filter, ← hafter', List.head?_filter]
  exact hsecond

/-- Four calls on one session, whose answers come in another order: a constant that is not known is
refused in one of them and replaced in another, one is a fault, and one comes after its deadline. -/
theorem outcome_of_first_addressed_four_ways :
    let registry : Registry :=
      { enums := [⟨"Colour", ["RED", "OTHER"], some "OTHER"⟩]
        operations := [{ key := ⟨"S", "1", "f"⟩, returns := some (.enum "Colour") }] }
    let s : Session :=
      { id := "s", role := .client, remote := .v4 127 0 0 1 9000, version := some .oldest
        state := .active }
    let x : Calls := { correlator := { registry, callTimeout := ⟨10⟩ }, sessions := [("s", s)] }
    let call : Call := { request := { key := ⟨"S", "1", "f"⟩, context := {}, arguments := {} } }
    let strict : Call := { call with strictEnums := some true }
    let blue := fun n => Event.answer "s" (.make .oldest .responseOk n [7, 4, 66, 76, 85, 69])
    let no := [6, 83, 101, 114, 118, 101, 114, 2, 110, 111, 0]
    let fault := Event.answer "s" (.make .oldest .responseFault 3 no)
    let y := x.run [.send ⟨0⟩ "s" call, .send ⟨1⟩ "s" strict, .send ⟨2⟩ "s" call,
      .send ⟨5⟩ "s" call, fault, blue 2, blue 3, blue 1, .sweep ⟨14⟩, .sweep ⟨15⟩, blue 4]
    y.outcomesOf 0 = [.ok ⟨{}, .enum "OTHER"⟩] ∧
      y.outcomesOf 1 = [.error (.enumDeserialisation "Colour" "BLUE")] ∧
      y.outcomesOf 2 = [.error (.fault ⟨.server, "no", none⟩)] ∧
      y.outcomesOf 3 = [.error (.timeout ⟨10⟩)] := by
  intro registry s x call strict blue no fault y
  have hx : x.IsFresh := ⟨rfl, rfl⟩
  have hfirst : ∀ (before after : List Event) {now : Duration} {call : Call} {p : Pending}
      {e : Event}, (x.run before).Registers now "s" call p →
      (after.takeWhile fun e => !e.isAddressedTo p).countP (Event.isSendOn "s") < 2 ^ 64 →
      after.find? (Event.isAddressedTo p) = some e →
      ∃ o, e.Gives registry p o ∧
        (x.run (before ++ .send now "s" call :: after)).outcomesOf p.ticket = [o] :=
    fun _ _ _ _ _ _ h hroom he => (outcome_of_first_addressed hx h hroom).2.2.2.1 _ he
  let terms := x.correlator.terms call
  let zero : Pending := { key := ⟨"s", 1⟩, ticket := 0, terms, deadline := ⟨10⟩ }
  let one : Pending :=
    { key := ⟨"s", 2⟩, ticket := 1, terms := x.correlator.terms strict, deadline := ⟨11⟩ }
  let two : Pending := { key := ⟨"s", 3⟩, ticket := 2, terms, deadline := ⟨12⟩ }
  let three : Pending := { key := ⟨"s", 4⟩, ticket := 3, terms, deadline := ⟨15⟩ }
  let answers := [fault, blue 2, blue 3, blue 1, .sweep ⟨14⟩, .sweep ⟨15⟩, blue 4]
  refine ⟨?_, ?_, ?_, ?_⟩
  · have h : (x.run []).Registers ⟨0⟩ "s" call zero := by decide +kernel
    obtain ⟨o, ho, hy⟩ := hfirst []
      (.send ⟨1⟩ "s" strict :: .send ⟨2⟩ "s" call :: .send ⟨5⟩ "s" call :: answers) h
      (by decide +kernel) rfl
    refine Eq.trans hy ?_
    rw [ho.eq_decode rfl]
    rfl
  · have h : (x.run [.send ⟨0⟩ "s" call]).Registers ⟨1⟩ "s" strict one := by decide +kernel
    obtain ⟨o, ho, hy⟩ := hfirst [.send ⟨0⟩ "s" call]
      (.send ⟨2⟩ "s" call :: .send ⟨5⟩ "s" call :: answers) h (by decide +kernel) rfl
    refine Eq.trans hy ?_
    rw [ho.eq_decode rfl]
    rfl
  · have h : (x.run [.send ⟨0⟩ "s" call, .send ⟨1⟩ "s" strict]).Registers ⟨2⟩ "s" call two := by
      decide +kernel
    obtain ⟨o, ho, hy⟩ := hfirst [.send ⟨0⟩ "s" call, .send ⟨1⟩ "s" strict]
      (.send ⟨5⟩ "s" call :: answers) h (by decide +kernel) rfl
    refine Eq.trans hy ?_
    have hread : Fault.decode no = .ok ⟨.server, "no", none⟩ := by rfl
    rw [ho.eq_fault rfl hread]
  · have h : (x.run [.send ⟨0⟩ "s" call, .send ⟨1⟩ "s" strict, .send ⟨2⟩ "s" call]).Registers
        ⟨5⟩ "s" call three := by decide +kernel
    obtain ⟨o, ho, hy⟩ := hfirst
      [.send ⟨0⟩ "s" call, .send ⟨1⟩ "s" strict, .send ⟨2⟩ "s" call] answers h
      (by decide +kernel) rfl
    cases ho
    exact hy

end Calls

end RemoteCall
