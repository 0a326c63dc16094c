/-
# Every call is resolved exactly once

A run that begins with a new client keeps its accounts, event by event and step by step, as long as
no session has used up its numbers.  Between two events no call is being sent, but for those whose
tasks have broken off.  What the accounts say then is that each other call waits or has ended.
-/
import RemoteCall.Proofs.Client.Accounts

namespace RemoteCall

namespace Calls

variable {x : Calls} {l : List Sending} {a : List (Nat × CallKey)} {id : String}
  {now : Duration} {call : Call} {p : Sending}

/-- Beginning to send a call either refuses it or leaves it with its task. -/
lemma begin_cases (x : Calls) (id : String) (call : Call) :
    (∃ o, x.begin id call = ({ x with made := x.made + 1 }.report x.made o, none)) ∨
      ∃ s p, x.session? id = some s ∧ p.stage = .checked ∧ p.ticket = x.made ∧ p.session = id ∧
        x.begin id call = ({ x with made := x.made + 1 }, some p) := by
  rcases hs : x.session? id with _ | s
  · have hs : Named.get? x.sessions id = none := hs
    exact Or.inl ⟨.error .notConnected, by simp only [begin, session?, hs]⟩
  rcases hprepare : prepare s call with e | ⟨version, payload⟩
  · have hs : Named.get? x.sessions id = some s := hs
    exact Or.inl ⟨.error e, by simp only [begin, session?, hs, hprepare]⟩
  · exact Or.inr ⟨s, _, rfl, rfl, rfl, rfl, begin_of_prepare hs hprepare⟩

/-- The places that an event gives to calls, as the step of sending that takes a number gives
them. -/
def allots (x : Calls) : Event → List (Nat × CallKey)
  | .send now id call =>
    match x.begin id call with
    | (_, none) => []
    | (y, some p) => gained p (y.advance now p).2
  | _ => []

/-- The places that were given to calls in a run, in order. -/
def allotted (x : Calls) : List Event → List (Nat × CallKey)
  | [] => []
  | e :: es => x.allots e ++ (x.next e).allotted es

/-- The tasks that break off in an event. -/
def breaksOff (x : Calls) : Event → List Sending
  | .send now id call => (x.brokenOff? now id call).toList
  | _ => []

/-- The tasks that have broken off in a run, in order. -/
def brokenOff (x : Calls) : List Event → List Sending
  | [] => []
  | e :: es => x.breaksOff e ++ (x.next e).brokenOff es

/-- A task breaks off only in sending a call whose deadline lies past the end of the clock. -/
lemma exists_send_of_mem_breaksOff {e : Event} (h : p ∈ x.breaksOff e) :
    ∃ now call, e = .send now p.session call ∧
      Duration.clockEnd.nanos ≤ now.nanos + (x.correlator.terms call).allowed.nanos := by
  cases e with
  | send now id call =>
    obtain ⟨s, v, -, -, hdeadline, rfl⟩ := brokenOff?_eq_some_iff.mp (Option.mem_toList.mp h)
    exact ⟨now, call, rfl, Duration.later?_eq_none_iff.mp hdeadline⟩
  | _ => cases h

lemma exists_send_of_mem_brokenOff {es : List Event} (h : p ∈ x.brokenOff es) :
    ∃ now call, .send now p.session call ∈ es ∧
      Duration.clockEnd.nanos ≤ now.nanos + (x.correlator.terms call).allowed.nanos := by
  induction es generalizing x with
  | nil => cases h
  | cons e es ih =>
    rcases List.mem_append.mp h with h | h
    · obtain ⟨now, call, rfl, hlate⟩ := exists_send_of_mem_breaksOff h
      exact ⟨now, call, List.mem_cons_self, hlate⟩
    · obtain ⟨now, call, hmem, hlate⟩ := ih h
      rw [terms_congr (x.rules_next e)] at hlate
      exact ⟨now, call, List.mem_cons_of_mem e hmem, hlate⟩

/-- The states that an event passes through, one for each of the steps that it is made of. -/
def within (x : Calls) : Event → List Calls
  | .send now id call =>
    match x.begin id call with
    | (y, none) => [x, y]
    | (y, some p) => x :: (List.range (sendSteps + 1)).map fun n => (advanceBy now n y p).1
  | .sweep now => (x.beginSweep now).keys.inits.map fun keys => (x.clearKeys .expired keys 0).2
  | .fail id reason =>
    (x.beginFail id reason).keys.inits.map fun keys => (x.clearKeys (.lost reason) keys 0).2
  | _ => [x]

/-- Taking out the entry of a place would hold the count of its session at zero. -/
def Clamps (x : Calls) (key : CallKey) : Prop :=
  ∃ p s, x.correlator.find? key = some p ∧ x.session? key.session = some s ∧ s.outstanding = 0

lemma Accounted.not_clamps (h : x.Accounted l a) (key : CallKey) : ¬ x.Clamps key := by
  rintro ⟨p, s, hp, hs, hzero⟩
  have hkey : p.key = key := by simpa using List.find?_some hp
  rw [← hkey] at hs
  exact Nat.ne_of_gt (h.outstanding_pos (List.mem_of_find?_eq_some hp) hs) hzero

/-- The sessions that an event is to take numbers from have one. -/
def HasNumbers (x : Calls) (e : Event) : Prop :=
  ∀ id, e.isSendOn id = true → ∀ s, x.session? id = some s →
    s.nextCorrelation.toNat + 1 < 2 ^ 64

/-- Sending a call leaves its task in the accounts if it breaks off, and only then. -/
lemma Accounted.send (h : x.Accounted l a) (hroom : x.HasNumbers (.send now id call)) :
    (x.send now id call).Accounted (x.breaksOff (.send now id call) ++ l)
        (a ++ x.allots (.send now id call)) ∧
      ∀ y ∈ x.within (.send now id call), ∃ l a', y.Accounted l a' := by
  rcases x.begin_cases id call with ⟨o, hbegin⟩ | ⟨s, p, hs, hp, ht, rfl, hbegin⟩
  · simp only [Calls.send, breaksOff, brokenOff?, sendTask, allots, within, hbegin, List.append_nil,
      Option.filter_none, Option.toList_none, List.nil_append]
    refine ⟨h.refused o, List.forall_mem_cons.mpr ⟨⟨l, a, h⟩, ?_⟩⟩
    exact List.forall_mem_singleton.mpr ⟨l, a, h.refused o⟩
  · have hbegun := h.begun hp ht ⟨s, hs⟩
    have hnumber : ({ x with made := x.made + 1 } : Calls).HasNumber p :=
      fun _ => hroom p.session (beq_self_eq_true _)
    simp only [Calls.send, breaksOff, brokenOff?, sendTask, allots, within, hbegin]
    constructor
    · have hsent := hbegun.advanceBy_succ hnumber now 5
      rcases stage_advanceBy now { x with made := x.made + 1 } p with hstage | hstage
      · rw [Option.filter_some, hstage]
        exact hsent.drop hstage
      · rw [Option.filter_some, hstage]
        exact hsent
    · refine List.forall_mem_cons.mpr ⟨⟨l, a, h⟩, ?_⟩
      intro y hy
      obtain ⟨n, -, rfl⟩ := List.mem_map.mp hy
      cases n with
      | zero => exact ⟨_, _, hbegun⟩
      | succ n => exact ⟨_, _, hbegun.advanceBy_succ hnumber now n⟩

/-- **Every event keeps the accounts**, and so does every step that it is made of. -/
lemma Accounted.next (h : x.Accounted l a) {e : Event} (hroom : x.HasNumbers e) :
    (x.next e).Accounted (x.breaksOff e ++ l) (a ++ x.allots e) ∧
      ∀ y ∈ x.within e, ∃ l a', y.Accounted l a' := by
  have hself : ∀ y ∈ [x], ∃ l a', y.Accounted l a' :=
    List.forall_mem_singleton.mpr ⟨l, a, h⟩
  -- only sending gives places to calls
  have h' : x.Accounted l (a ++ []) := by rwa [List.append_nil]
  cases e with
  | send now id call => exact h.send hroom
  | answer id frame => exact ⟨h'.resolve _ _, hself⟩
  | sweep now =>
    refine ⟨h'.clearKeys, fun y hy => ?_⟩
    obtain ⟨keys, -, rfl⟩ := List.mem_map.mp hy
    exact ⟨l, a, h.clearKeys⟩
  | fail id reason =>
    refine ⟨h'.clearKeys, fun y hy => ?_⟩
    obtain ⟨keys, -, rfl⟩ := List.mem_map.mp hy
    exact ⟨l, a, h.clearKeys⟩
  | perform id c => exact ⟨h'.onSession fun s _ => s.counters_perform c, hself⟩
  | dropQueue id => exact ⟨h'.onSession fun s _ => ⟨rfl, rfl⟩, hself⟩

lemma session_advance (x : Calls) (now : Duration) (p : Sending) :
    (x.advance now p).2.session = p.session := by
  rcases hp : p.stage with _ | n | n | n | n | ⟨n, e⟩ | _ | _ <;> simp only [advance, hp]
  all_goals repeat' split
  all_goals rfl

lemma mem_gained {p q : Sending} {g : Nat × CallKey} (h : g ∈ gained p q) :
    gained p q = [g] ∧ g.2.session = q.session := by
  rw [gained] at h ⊢
  split at h
  · obtain ⟨key, hkey, rfl⟩ := Option.map_eq_some_iff.mp (Option.mem_toList.mp h)
    refine ⟨by rw [hkey]; rfl, ?_⟩
    rw [Sending.place?] at hkey
    split at hkey <;> cases hkey <;> rfl
  · cases h

/-- The call has no number yet, and is to get one from a session. -/
def Sending.wantsOn (id : String) (p : Sending) : Bool := p.stage == .checked && p.session == id

/-- A step of sending gives at most one place, to a call that wants one. -/
lemma countP_gained_le (x : Calls) (now : Duration) (p : Sending) (id : String) :
    (gained p (x.advance now p).2).countP (fun g => g.2.session == id) ≤
      (p.wantsOn id).toNat := by
  -- a place that is given is the only one, on the session of the call
  by_cases hany : ∃ g ∈ gained p (x.advance now p).2, g.2.session = id
  · obtain ⟨g, hg, hid⟩ := hany
    obtain ⟨hone, hsession⟩ := mem_gained hg
    rw [session_advance, hid] at hsession
    have hp : p.stage = .checked := by
      rw [gained] at hg
      split at hg
      · next hp => exact hp
      · cases hg
    rw [hone, List.countP_singleton, Sending.wantsOn, hp, ← hsession, beq_self_eq_true,
      beq_self_eq_true]
    split <;> decide
  · rw [List.countP_eq_zero.mpr]
    · exact Nat.zero_le _
    · exact fun g hg hid => hany ⟨g, hg, beq_iff_eq.mp hid⟩

/-- An event gives at most one place on the session that it sends on, and none on others. -/
lemma countP_allots_le (x : Calls) (e : Event) (id : String) :
    (x.allots e).countP (fun g => g.2.session == id) ≤ (e.isSendOn id).toNat := by
  cases e with
  | send now i call =>
    rcases x.begin_cases i call with ⟨o, hbegin⟩ | ⟨s, p, -, hp, -, rfl, hbegin⟩
    · simp [allots, hbegin]
    · have hle := countP_gained_le ({ x with made := x.made + 1 } : Calls) now p id
      rw [Sending.wantsOn, hp, beq_self_eq_true, Bool.true_and] at hle
      simpa only [allots, hbegin, Event.isSendOn] using hle
  | _ => exact Nat.zero_le _

/-- Each session has a number for each call that is still to be sent on it. -/
def HasRoom (a : List (Nat × CallKey)) (es : List Event) : Prop :=
  ∀ id, a.countP (fun g => g.2.session == id) + es.countP (Event.isSendOn id) + 1 < 2 ^ 64

lemma Accounted.hasNumbers (h : x.Accounted l a) {e : Event} {es : List Event}
    (hroom : HasRoom a (e :: es)) : x.HasNumbers e := by
  intro id hsend s hs
  have hid := hroom id
  rw [List.countP_cons_of_pos hsend] at hid
  rw [h.number id s hs]
  omega

lemma HasRoom.next {e : Event} {es : List Event} (h : HasRoom a (e :: es)) (x : Calls) :
    HasRoom (a ++ x.allots e) es := by
  intro id
  have hid := h id
  have hle := x.countP_allots_le e id
  rw [List.countP_append]
  by_cases hsend : e.isSendOn id = true
  · rw [List.countP_cons_of_pos hsend] at hid
    rw [hsend, Bool.toNat_true] at hle
    omega
  · rw [List.countP_cons_of_neg hsend] at hid
    rw [Bool.eq_false_iff.mpr hsend, Bool.toNat_false] at hle
    omega

lemma HasRoom.run {es fs : List Event} (h : HasRoom a (es ++ fs)) (x : Calls) :
    HasRoom (a ++ x.allotted es) fs := by
  induction es generalizing x a with
  | nil => rwa [allotted, List.append_nil]
  | cons e es ih =>
    rw [allotted, ← List.append_assoc]
    exact ih (h.next x) (x.next e)

lemma HasRoom.of_append {es fs : List Event} (h : HasRoom a (es ++ fs)) : HasRoom a es := by
  intro id
  have hid := h id
  rw [List.countP_append] at hid
  omega

/-- **Every run keeps the accounts.** -/
lemma Accounted.run (h : x.Accounted l a) {es : List Event} (hroom : HasRoom a es) :
    (x.run es).Accounted (l ++ x.brokenOff es) (a ++ x.allotted es) := by
  induction es generalizing x l a with
  | nil => rwa [brokenOff, allotted, List.append_nil, List.append_nil]
  | cons e es ih =>
    have hnext := (h.next (h.hasNumbers hroom)).1.perm List.perm_append_comm
    rw [brokenOff, allotted, ← List.append_assoc, ← List.append_assoc]
    exact ih hnext (hroom.next x)

/-- All tasks that have broken off in a run have done so for good. -/
lemma stage_of_mem_brokenOff {es : List Event} (h : p ∈ x.brokenOff es) :
    p.stage = .brokenOff := by
  induction es generalizing x with
  | nil => cases h
  | cons e es ih =>
    rcases List.mem_append.mp h with h | h
    · cases e with
      | send now id call =>
        obtain ⟨s, v, -, -, -, rfl⟩ := brokenOff?_eq_some_iff.mp (Option.mem_toList.mp h)
        rfl
      | _ => cases h
    · exact ih h

/-- A client that has made no call, and whose sessions have carried none. -/
structure IsNew (x : Calls) : Prop extends x.IsFresh where
  made : x.made = 0
  unused : ∀ id s, x.session? id = some s → s.outstanding = 0 ∧ s.nextCorrelation = 1

/-- A client whose sessions have carried no call, as they are listed. -/
lemma isNew_of_forall (hfresh : x.IsFresh) (hmade : x.made = 0)
    (h : ∀ e ∈ x.sessions, e.2.outstanding = 0 ∧ e.2.nextCorrelation = 1) : x.IsNew :=
  ⟨hfresh, hmade, fun _ _ hs => h _ (Named.mem_of_get? hs)⟩

lemma IsNew.accounted (h : x.IsNew) : x.Accounted [] [] := by
  have hplaces : ∀ t, x.places [] t = 0 := by
    intro t
    rw [places, h.pending, h.reported]
    rfl
  refine ⟨?_, ?_, fun t _ => hplaces t, ?_, ?_, List.nodup_nil, ?_, ?_, ?_⟩
  · exact fun p hp => absurd hp List.not_mem_nil
  · intro t ht
    rw [h.made] at ht
    exact absurd ht (Nat.not_lt_zero t)
  · intro i s hs
    rw [(h.unused i s hs).1, due, h.pending]
    rfl
  · intro i s hs
    rw [(h.unused i s hs).2]
    rfl
  · exact fun g hg => absurd hg List.not_mem_nil
  · exact fun p hp => absurd hp List.not_mem_nil
  · rw [h.pending]
    exact fun p hp => absurd hp List.not_mem_nil

lemma length_entriesOf (x : Calls) (t : Nat) :
    (x.entriesOf t).length = x.correlator.pending.countP fun p => p.ticket == t :=
  List.countP_eq_length_filter.symm

lemma length_outcomesOf (x : Calls) (t : Nat) :
    (x.outcomesOf t).length = x.reported.countP fun r => r.1 == t := by
  rw [outcomesOf, List.length_map]
  exact List.countP_eq_length_filter.symm

/-- A call in one place that is not with a task waits, or has ended. -/
lemma waits_or_ended {t : Nat} (h : x.places l t = 1)
    (hl : ∀ p ∈ l, p.ticket = t → p.holds = false) :
    (∃ p, p.ticket = t ∧ x.Waits p) ∨ ∃ o, x.Ended t o := by
  have hheld : l.countP (fun p => p.holds && p.ticket == t) = 0 := by
    refine List.countP_eq_zero.mpr fun p hp hholds => ?_
    obtain ⟨hholds, hticket⟩ := Bool.and_eq_true_iff.mp hholds
    rw [hl p hp (beq_iff_eq.mp hticket)] at hholds
    cases hholds
  rw [places, ← length_entriesOf, ← length_outcomesOf, hheld] at h
  rcases Nat.eq_zero_or_pos (x.outcomesOf t).length with hzero | hpos
  · obtain ⟨p, hp⟩ := List.length_eq_one_iff.mp (show (x.entriesOf t).length = 1 by omega)
    obtain ⟨-, rfl⟩ := mem_entriesOf.mp (hp ▸ List.mem_singleton_self p)
    exact Or.inl ⟨p, rfl, hp, List.eq_nil_of_length_eq_zero hzero⟩
  · obtain ⟨o, ho⟩ := List.length_eq_one_iff.mp (show (x.outcomesOf t).length = 1 by omega)
    exact Or.inr ⟨o, List.eq_nil_of_length_eq_zero (by omega), ho⟩

/-- A call in one place that is with a task is nowhere else. -/
lemma lost_of_holds (h : x.places l p.ticket ≤ 1) (hp : p ∈ l) (hholds : p.holds = true) :
    x.Lost p.ticket := by
  have hheld : 0 < l.countP fun q => q.holds && q.ticket == p.ticket :=
    List.countP_pos_iff.mpr ⟨p, hp, by rw [hholds, beq_self_eq_true]; rfl⟩
  rw [places, ← length_entriesOf, ← length_outcomesOf] at h
  exact ⟨List.eq_nil_of_length_eq_zero (by omega), List.eq_nil_of_length_eq_zero (by omega)⟩

lemma made_run (x : Calls) (es : List Event) :
    (x.run es).made = x.made + es.countP Event.isSend := by
  induction es generalizing x with
  | nil => rfl
  | cons e es ih =>
    have hrun := ih (x.next e)
    rw [made_next] at hrun
    refine hrun.trans ?_
    rw [List.countP_cons]
    cases e.isSend <;> simp [Nat.add_comm, Nat.add_left_comm]

/-- **Each call is resolved exactly once**, unless the clock cannot tell its deadline: at every
point of a run each call that was sent, and whose task has not broken off, either has one entry and
no outcome, or no entry and one outcome; no two calls were given one place, and none the number
zero; each session counts its entries, and the calls on it whose tasks have broken off; and no step
of any event would take out an entry that its session does not count.  The calls whose tasks have
broken off, those with a deadline past the end of the clock, have neither entry nor outcome. -/
theorem resolved_exactly_once (hx : x.IsNew) {es : List Event}
    (hes : ∀ id, es.countP (Event.isSendOn id) < 2 ^ 64 - 1) :
    (x.run es).made = es.countP Event.isSend ∧
      (∀ t < (x.run es).made, (∀ p ∈ x.brokenOff es, p.ticket ≠ t) →
        (∃ p, p.ticket = t ∧ (x.run es).Waits p) ∨ ∃ o, (x.run es).Ended t o) ∧
      ((x.allotted es).map Prod.snd).Nodup ∧
      (∀ g ∈ x.allotted es, g.2.correlation ≠ 0) ∧
      (∀ p ∈ (x.run es).correlator.pending, (p.ticket, p.key) ∈ x.allotted es) ∧
      (∀ id s, (x.run es).session? id = some s →
        s.outstanding = (x.run es).correlator.pending.countP (fun p => p.key.session == id) +
          (x.brokenOff es).countP fun p => p.session == id) ∧
      (∀ before e after, es = before ++ e :: after →
        ∀ y ∈ (x.run before).within e, ∀ key, ¬ y.Clamps key) ∧
      ∀ p ∈ x.brokenOff es, (x.run es).Lost p.ticket ∧
        ∃ now call, .send now p.session call ∈ es ∧
          Duration.clockEnd.nanos ≤
            now.nanos + (call.timeout.getD x.correlator.callTimeout).nanos := by
  have hroom : HasRoom [] es := by
    intro id
    have hid := hes id
    rw [List.countP_nil]
    omega
  have h : (x.run es).Accounted (x.brokenOff es) (x.allotted es) := hx.accounted.run hroom
  refine ⟨?_, fun t ht hbroken => ?_, h.distinct, ?_, h.entered, ?_, ?_, ?_⟩
  · rw [made_run, hx.made, Nat.zero_add]
  · exact waits_or_ended (h.once t ht) fun p hp hticket => absurd hticket (hbroken p hp)
  · intro g hg hzero
    have hpos := (h.below g hg).1
    rw [hzero] at hpos
    exact Nat.lt_irrefl _ hpos
  · intro id s hs
    rw [h.outstanding id s hs, due]
    congr 1
    refine List.countP_congr fun p hp => ?_
    rw [Sending.isCounted, stage_of_mem_brokenOff hp, Bool.true_and]
  · rintro before e after rfl y hy key
    have hb := hx.accounted.run hroom.of_append
    obtain ⟨l, a, hy⟩ := (hb.next (hb.hasNumbers (hroom.run x))).2 y hy
    exact hy.not_clamps key
  · intro p hp
    have hholds : p.holds = true := by rw [Sending.holds, stage_of_mem_brokenOff hp]
    exact ⟨lost_of_holds (h.places_le_one _) hp hholds, exists_send_of_mem_brokenOff hp⟩

/-- An answered call, one on a session whose writer has stopped, one that is not answered by its
deadline, one that still waits, and one whose deadline lies past the end of the clock. -/
theorem resolved_exactly_once_mixed :
    let s : Session :=
      { id := "s", role := .client, remote := .v4 127 0 0 1 9000, version := some .oldest
        state := .active }
    let x : Calls :=
      { correlator := { registry := {}, callTimeout := ⟨10⟩ }
        sessions := [("s", s), ("d", { s with id := "d", queueOpen := false })] }
    let call : Call := { request := { key := ⟨"S", "1", "f"⟩, context := {}, arguments := {} } }
    let es : List Event := [.send ⟨0⟩ "s" call, .send ⟨1⟩ "d" call, .send ⟨2⟩ "s" call,
      .answer "s" (.make .oldest .responseFault 1 [6, 83, 101, 114, 118, 101, 114, 2, 110, 111, 0]),
      .sweep ⟨12⟩, .send ⟨13⟩ "s" call, .send ⟨14⟩ "s" { call with timeout := some .clockEnd }]
    let y := x.run es
    let p : Pending :=
      { key := ⟨"s", 3⟩, ticket := 3, terms := x.correlator.terms call, deadline := ⟨23⟩ }
    x.IsNew ∧ (∀ id, es.countP (Event.isSendOn id) < 2 ^ 64 - 1) ∧ y.made = 5 ∧
      ((x.allotted es).map Prod.snd).Nodup ∧
      y.Ended 0 (.error (.fault ⟨.server, "no", none⟩)) ∧
      y.Ended 1 (.error (.communicationFailure "session d writer has stopped")) ∧
      y.Ended 2 (.error (.timeout ⟨10⟩)) ∧
      y.Waits p ∧
      y.Lost 4 ∧ ∀ s, y.session? "s" = some s → s.outstanding = 2 := by
  intro s x call es y p
  have hx : x.IsNew := isNew_of_forall ⟨rfl, rfl⟩ rfl (by decide)
  have hes : ∀ id, es.countP (Event.isSendOn id) < 2 ^ 64 - 1 :=
    fun id => Nat.lt_of_le_of_lt List.countP_le_length (by decide)
  obtain ⟨hmade, hcalls, hdistinct, -, -, hcount, -, hbroken⟩ := resolved_exactly_once hx hes
  have hfive : y.made = 5 := hmade
  have htickets : (x.brokenOff es).map Sending.ticket = [4] := by decide +kernel
  have hticket : ∀ p ∈ x.brokenOff es, p.ticket = 4 := by
    intro p hp
    have hmem : p.ticket ∈ (x.brokenOff es).map Sending.ticket := List.mem_map_of_mem hp
    rw [htickets] at hmem
    exact List.mem_singleton.mp hmem
  have hcall : ∀ t < 4, (∃ p, p.ticket = t ∧ y.Waits p) ∨ ∃ o, y.Ended t o := by
    intro t ht
    refine hcalls t (hmade ▸ Nat.lt_succ_of_lt ht) fun p hp => ?_
    rw [hticket p hp]
    exact Nat.ne_of_gt ht
  have hended : ∀ t < 4, ∀ o, y.outcomesOf t = [o] → y.Ended t o := by
    intro t ht o ho
    rcases hcall t ht with ⟨p, rfl, hp⟩ | ⟨o', ho'⟩
    · cases hp.silent.symm.trans ho
    · cases ho'.outcome.symm.trans ho
      exact ho'
  have houtcomes : y.outcomesOf 0 = [.error (.fault ⟨.server, "no", none⟩)] ∧
      y.outcomesOf 1 = [.error (.communicationFailure "session d writer has stopped")] ∧
      y.outcomesOf 2 = [.error (.timeout ⟨10⟩)] ∧ y.outcomesOf 3 = [] := by
    dsimp only [y, es, call, x, s]
    exact ⟨by rfl, by rfl, by rfl, by rfl⟩
  refine ⟨hx, hes, hfive, hdistinct, hended 0 (by decide) _ houtcomes.1,
    hended 1 (by decide) _ houtcomes.2.1, hended 2 (by decide) _ houtcomes.2.2.1, ?_, ?_, ?_⟩
  · rcases hcall 3 (by decide) with ⟨q, hq, hwaits⟩ | ⟨o, ho⟩
    · have hentries : y.entriesOf 3 = [p] := by decide +kernel
      have hentry := hwaits.entry
      rw [hq, hentries] at hentry
      cases hentry
      exact hwaits
    · cases houtcomes.2.2.2.symm.trans ho.outcome
  · obtain ⟨p, hp⟩ := List.exists_mem_of_ne_nil (x.brokenOff es) (by
      intro hnil
      rw [hnil] at htickets
      cases htickets)
    rw [← hticket p hp]
    exact (hbroken p hp).1
  · intro t ht
    refine (hcount "s" t ht).trans ?_
    decide +kernel

/-- A call that may take as long as can be said is counted and then forgotten: no answer, no time
that the clock tells and no loss of its session gives it an outcome or takes it off the count. -/
theorem counted_for_good :
    let s : Session :=
      { id := "s", role := .client, remote := .v4 127 0 0 1 9000, version := some .oldest
        state := .active }
    let x : Calls :=
      { correlator := { registry := {}, callTimeout := ⟨10⟩ }, sessions := [("s", s)] }
    let call : Call :=
      { request := { key := ⟨"S", "1", "f"⟩, context := {}, arguments := {} }
        timeout := some (.ofSeconds 18446744073709551615 999999999) }
    let es : List Event := [.send ⟨0⟩ "s" call, .answer "s" (.make .oldest .responseOk 1 [0]),
      .sweep ⟨Duration.clockEnd.nanos - 1⟩, .perform "s" .forceDisconnect, .fail "s" "gone"]
    let y := x.run es
    x.IsNew ∧ y.made = 1 ∧ (∀ p ∈ y.correlator.pending, p.ticket ≠ 0) ∧
      (∀ r ∈ y.reported, r.1 ≠ 0) ∧ (y.session? "s").map Session.outstanding = some 1 := by
  intro s x call es y
  refine ⟨isNew_of_forall ⟨rfl, rfl⟩ rfl (by decide), by decide +kernel, ?_, ?_, ?_⟩
  · decide +kernel
  · have hreported : y.reported.map Prod.fst = [] := by decide +kernel
    rw [List.map_eq_nil_iff.mp hreported]
    exact fun r hr => absurd hr List.not_mem_nil
  · decide +kernel

end Calls

end RemoteCall
