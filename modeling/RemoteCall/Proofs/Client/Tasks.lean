/-
# The accounts of tasks that come between each other

The accounts of a client speak of any calls in the middle of being sent, so that they are kept
whatever steps other tasks take between two steps of sending.  What is added here is the run: which
numbers the tasks will still ask a session for, and which calls were handed over to be sent on it.
-/
import Mathlib.Data.List.Perm.Basic
import RemoteCall.Client.Tasks
import RemoteCall.Proofs.Client.ExactlyOnce

namespace RemoteCall

namespace Calls

variable {x : Calls} {l l' : List Sending} {a : List (Nat × CallKey)} {p : Sending}
  {now : Duration}

/-- What a step of sending does to a client: it changes the session of the call but not the state
of the session, or it enters the call, or it takes the entry of the call out again. -/
lemma advance_cases (x : Calls) (now : Duration) (p : Sending) :
    (x.advance now p).1 = x ∨
      (∃ f : Session → Session, (x.advance now p).1 = x.onSession p.session f ∧
        ∀ s, x.session? p.session = some s → (f s).state = s.state) ∨
      (∃ n deadline, p.stage = .counted n ∧ p.terms.deadline? now = some deadline ∧
        (x.advance now p).1 = { x with correlator := x.correlator.enter (p.entry deadline n) }) ∨
      ∃ n e, p.stage = .refused n e ∧
        (x.advance now p).1 = (x.resolve ⟨p.session, n⟩ fun _ => .error e).2 := by
  rcases hs : x.session? p.session with _ | s
  · have hs : Named.get? x.sessions p.session = none := hs
    rcases hp : p.stage with _ | n | n | n | n | ⟨n, e⟩ | _ | _ <;>
      simp only [advance, session?, Sessions.update, hp, hs, Option.map_none]
    case numbered => exact Or.inr (Or.inl ⟨Session.countUp, rfl, fun s hs => absurd hs (by simp)⟩)
    case counted =>
      rcases hdeadline : p.terms.deadline? now with _ | deadline
      · exact Or.inl rfl
      · exact Or.inr (Or.inr (Or.inl ⟨n, deadline, rfl, rfl, rfl⟩))
    case refused => exact Or.inr (Or.inr (Or.inr ⟨n, e, rfl, rfl⟩))
    all_goals exact Or.inl trivial
  · rcases hp : p.stage with _ | n | n | n | n | ⟨n, e⟩ | _ | _
    · refine Or.inr (Or.inl ⟨fun _ => s.takeCorrelation.2, ?_, ?_⟩)
      · rw [advance_checked hp hs]
      · intro t ht
        rw [← Option.some_inj.mp ht]
        rfl
    · exact Or.inr (Or.inl ⟨Session.countUp, by rw [advance_numbered hp], fun _ _ => rfl⟩)
    · rcases hdeadline : p.terms.deadline? now with _ | deadline
      · exact Or.inl (by rw [advance_counted_of_none hp hdeadline])
      · exact Or.inr (Or.inr (Or.inl
          ⟨n, deadline, rfl, rfl, by rw [advance_counted hp hdeadline]⟩))
    · rcases hpass : s.letPass with e | _
      · exact Or.inl (by rw [advance_entered_refused hp hs hpass])
      · exact Or.inl (by rw [advance_entered hp hs hpass])
    · rcases hpush : s.push (p.frame n) with e | s'
      · exact Or.inl (by rw [advance_admitted_refused hp hs hpush])
      · refine Or.inr (Or.inl ⟨fun _ => s', by rw [advance_admitted hp hs hpush], ?_⟩)
        intro t ht
        rw [← Option.some_inj.mp ht]
        obtain ⟨-, rfl⟩ := Session.push_eq_ok.mp hpush
        rfl
    · exact Or.inr (Or.inr (Or.inr ⟨n, e, rfl, by rw [advance_refused hp]⟩))
    · exact Or.inl (by rw [advance_returned hp])
    · exact Or.inl (by rw [advance_brokenOff hp])

lemma made_advance (x : Calls) (now : Duration) (p : Sending) :
    (x.advance now p).1.made = x.made := by
  rcases x.advance_cases now p with h | ⟨f, h, -⟩ | ⟨n, deadline, -, -, h⟩ | ⟨n, e, -, h⟩
  · rw [h]
  · rw [h]
    rfl
  · rw [h]
  · rw [h]
    exact x.made_resolve _ _

/-- An entry after a step of sending was there before, or is the entry of the call. -/
lemma mem_pending_advance {q : Pending} (hq : q ∈ (x.advance now p).1.correlator.pending) :
    q ∈ x.correlator.pending ∨ ∃ n deadline, p.stage = .counted n ∧
      p.terms.deadline? now = some deadline ∧ q = p.entry deadline n := by
  rcases x.advance_cases now p with h | ⟨f, h, -⟩ | ⟨n, deadline, hp, hdeadline, h⟩ |
    ⟨n, e, -, h⟩ <;> rw [h] at hq
  · exact Or.inl hq
  · exact Or.inl hq
  · rcases List.mem_append.mp hq with hq | hq
    · exact Or.inl (List.mem_of_mem_filter hq)
    · exact Or.inr ⟨n, deadline, hp, hdeadline, List.mem_singleton.mp hq⟩
  · exact Or.inl (mem_pending_resolve hq).1

lemma ticket_advance (x : Calls) (now : Duration) (p : Sending) :
    (x.advance now p).2.ticket = p.ticket := by
  rcases hp : p.stage with _ | n | n | n | n | ⟨n, e⟩ | _ | _ <;> simp only [advance, hp]
  all_goals repeat' split
  all_goals rfl

end Calls

namespace CallTasks

open Calls

variable {t : CallTasks} {a : List (Nat × CallKey)} {id : String} {m : Move} {ms : List Move}

/-! ## Steps of one task among others -/

/-- A step at an index replaces the call there and leaves the others as they are. -/
lemma perm_set {l : List Sending} {i : Nat} {p : Sending} (hp : l[i]? = some p) (q : Sending) :
    l.Perm (p :: l.eraseIdx i) ∧ (l.set i q).Perm (q :: l.eraseIdx i) := by
  obtain ⟨hi, rfl⟩ := List.getElem?_eq_some_iff.mp hp
  exact ⟨(List.getElem_cons_eraseIdx_perm hi).symm, List.set_perm_cons_eraseIdx hi q⟩

lemma next_advance {i : Nat} {p : Sending} (hp : t.sending[i]? = some p) (now : Duration) :
    t.next (.advance i now) =
      { t with
        calls := (t.calls.advance now p).1
        sending := t.sending.set i (t.calls.advance now p).2 } := by
  simp only [next, hp]

lemma next_advance_of_none {i : Nat} (hi : t.sending[i]? = none) (now : Duration) :
    t.next (.advance i now) = t := by
  simp only [next, hi]

/-- A task that clears out entries does nothing, or looks at the first of its places. -/
lemma next_clearOne_cases (t : CallTasks) (i : Nat) :
    t.next (.clearOne i) = t ∨
      ∃ c c' key, t.clearing[i]? = some c ∧ c.keys = key :: c'.keys ∧
        t.next (.clearOne i) =
          { t with
            calls := (t.calls.resolve key c.reason.outcome).2
            clearing := t.clearing.set i c' } := by
  rcases hc : t.clearing[i]? with _ | c
  · exact Or.inl (by simp only [next, hc])
  rcases hkeys : c.keys with _ | ⟨key, keys⟩
  · obtain ⟨hi, rfl⟩ := List.getElem?_eq_some_iff.mp hc
    left
    simp only [next, hc, clearOne, hkeys, List.set_getElem_self]
  · right
    refine ⟨c, (t.calls.clearOne c).2, key, rfl, ?_, ?_⟩
    · simp only [clearOne, hkeys]
    · simp only [next, hc, clearOne, hkeys]

/-- The step belongs to the sending of a call. -/
def Move.isSending : Move → Bool
  | .beginSend .. | .advance .. => true
  | _ => false

/-- Steps that do not belong to sending leave the calls that are being sent alone, and enter no
call. -/
lemma next_of_not_isSending (hm : m.isSending = false) :
    (t.next m).calls.made = t.calls.made ∧ (t.next m).sending = t.sending ∧
      (t.next m).calls.correlator.pending ⊆ t.calls.correlator.pending := by
  have hresolve : ∀ key f, (t.calls.resolve key f).2.correlator.pending ⊆
      t.calls.correlator.pending := fun key f q hq => (mem_pending_resolve hq).1
  cases m with
  | beginSend i call => cases hm
  | advance i now => cases hm
  | answer id frame => exact ⟨t.calls.made_resolve _ _, rfl, hresolve _ _⟩
  | clearOne i =>
    rcases t.next_clearOne_cases i with hy | ⟨c, c', key, -, -, hy⟩ <;> rw [hy]
    · exact ⟨rfl, rfl, List.Subset.refl _⟩
    · exact ⟨t.calls.made_resolve _ _, rfl, hresolve _ _⟩
  | _ => exact ⟨rfl, rfl, List.Subset.refl _⟩

/-! ## Numbers over a run -/

/-- A call is handed over to be sent on a session. -/
def Move.isSendOn (id : String) : Move → Bool
  | .beginSend i _ => i == id
  | _ => false

/-- The places that a step gives to calls. -/
def allots (t : CallTasks) : Move → List (Nat × CallKey)
  | .advance i now =>
    match t.sending[i]? with
    | none => []
    | some p => gained p (t.calls.advance now p).2
  | _ => []

lemma allots_advance {i : Nat} {p : Sending} (hp : t.sending[i]? = some p) (now : Duration) :
    t.allots (.advance i now) = gained p (t.calls.advance now p).2 := by
  simp only [allots, hp]

/-- Each session has a number for each call that wants one or is still to be sent on it. -/
def HasRoom (a : List (Nat × CallKey)) (l : List Sending) (ms : List Move) : Prop :=
  ∀ id, a.countP (fun g => g.2.session == id) + l.countP (Sending.wantsOn id) +
    ms.countP (Move.isSendOn id) + 1 < 2 ^ 64

lemma HasRoom.hasNumber {l : List Sending} (hroom : HasRoom a l ms) (h : t.calls.Accounted l a)
    {p : Sending} (hp : p ∈ l) : t.calls.HasNumber p := by
  intro hstage s hs
  have hpos : 0 < l.countP (Sending.wantsOn p.session) :=
    List.countP_pos_iff.mpr ⟨p, hp, by simp [Sending.wantsOn, hstage]⟩
  have hid := hroom p.session
  rw [h.number _ s hs]
  omega

lemma HasRoom.next (h : HasRoom a t.sending (m :: ms)) :
    HasRoom (a ++ t.allots m) (t.next m).sending ms := by
  intro id
  have hid := h id
  rw [List.countP_cons] at hid
  rw [List.countP_append]
  cases m with
  | beginSend i call =>
    have hbegun : (t.next (.beginSend i call)).sending.countP (Sending.wantsOn id) ≤
        t.sending.countP (Sending.wantsOn id) +
          if (Move.beginSend i call).isSendOn id then 1 else 0 := by
      rcases t.calls.begin_cases i call with ⟨o, hb⟩ | ⟨s, p, -, hp, -, rfl, hb⟩
      · simp [CallTasks.next, hb]
      · simp [CallTasks.next, hb, List.countP_append, List.countP_singleton, Sending.wantsOn, hp,
          Move.isSendOn]
    simp only [allots, List.countP_nil]
    omega
  | advance i now =>
    rcases hp : t.sending[i]? with _ | p
    · rw [next_advance_of_none hp]
      simp only [Move.isSendOn, allots, hp, List.countP_nil] at hid ⊢
      omega
    · -- a call that gets a number wants none any more
      obtain ⟨hl, hset⟩ := perm_set hp (t.calls.advance now p).2
      have hgained := countP_gained_le t.calls now p id
      have hdone : (t.calls.advance now p).2.wantsOn id = false := by
        simp [Sending.wantsOn, t.calls.stage_advance_ne now p]
      rw [hl.countP_eq, List.countP_cons] at hid
      rw [allots_advance hp, next_advance hp, hset.countP_eq, List.countP_cons, hdone]
      cases hw : p.wantsOn id
      · rw [hw, Bool.toNat_false] at hgained
        simp only [hw, Bool.false_eq_true, if_false] at hid ⊢
        omega
      · rw [hw, Bool.toNat_true] at hgained
        simp only [hw, if_true, Bool.false_eq_true, if_false] at hid ⊢
        omega
  | _ =>
    rw [(next_of_not_isSending rfl).2.1]
    simp only [Move.isSendOn, allots, List.countP_nil] at hid ⊢
    omega

/-- **Every step of every task keeps the accounts.** -/
lemma accounted_next (h : t.calls.Accounted t.sending a)
    (hroom : HasRoom a t.sending (m :: ms)) :
    (t.next m).calls.Accounted (t.next m).sending (a ++ t.allots m) := by
  -- only sending gives places to calls
  have h' : t.calls.Accounted t.sending (a ++ []) := by rwa [List.append_nil]
  cases m with
  | beginSend i call =>
    rcases t.calls.begin_cases i call with ⟨o, hb⟩ | ⟨s, p, hs, hp, ht, rfl, hb⟩
    · simpa [CallTasks.next, allots, hb] using h.refused o
    · have hbegun := (h.begun hp ht ⟨s, hs⟩).perm (List.perm_append_singleton p _).symm
      simpa [CallTasks.next, allots, hb] using hbegun
  | advance i now =>
    rcases hp : t.sending[i]? with _ | p
    · rw [next_advance_of_none hp]
      simpa only [allots, hp] using h'
    · obtain ⟨hl, hset⟩ := perm_set hp (t.calls.advance now p).2
      have hnumber := hroom.hasNumber h (List.mem_of_getElem? hp)
      rw [allots_advance hp, next_advance hp]
      exact ((h.perm hl).advance hnumber now).perm hset.symm
  | answer id frame => exact h'.resolve _ _
  | clearOne i =>
    rcases t.next_clearOne_cases i with hy | ⟨c, c', key, -, -, hy⟩ <;> rw [hy]
    · exact h'
    · exact h'.resolve _ _
  | perform id c => exact h'.onSession fun s _ => s.counters_perform c
  | dropQueue id => exact h'.onSession fun s _ => ⟨rfl, rfl⟩
  | _ => exact h'

/-- **Every interleaving keeps the accounts**, as long as no session has used up its numbers. -/
lemma accounted_run (h : t.calls.Accounted t.sending a) (hroom : HasRoom a t.sending ms) :
    ∃ a', (t.run ms).calls.Accounted (t.run ms).sending a' := by
  induction ms generalizing t a with
  | nil => exact ⟨a, h⟩
  | cons m ms ih => exact ih (accounted_next h hroom) hroom.next

/-! ## Calls on one session over a run -/

/-- The calls that are handed over in a run to be sent on a session. -/
def madeOn (t : CallTasks) (id : String) : List Move → List Nat
  | [] => []
  | m :: ms => (if m.isSendOn id then [t.calls.made] else []) ++ (t.next m).madeOn id ms

/-- The calls in `T` are on one session: those that are being sent, and those that wait. -/
structure KeepsOn (t : CallTasks) (id : String) (T : List Nat) : Prop where
  made : ∀ k ∈ T, k < t.calls.made
  sending : ∀ p ∈ t.sending, p.ticket < t.calls.made ∧ (p.ticket ∈ T → p.session = id)
  pending : ∀ q ∈ t.calls.correlator.pending,
    q.ticket < t.calls.made ∧ (q.ticket ∈ T → q.key.session = id)

variable {u : CallTasks} {T : List Nat}

/-- Where every call under way comes from one that was, calls stay on their session. -/
lemma KeepsOn.congr (h : t.KeepsOn id T) (hmade : u.calls.made = t.calls.made)
    (hsending : ∀ p ∈ u.sending, ∃ q ∈ t.sending, q.ticket = p.ticket ∧ q.session = p.session)
    (hpending : ∀ q ∈ u.calls.correlator.pending, q ∈ t.calls.correlator.pending ∨
      ∃ p ∈ t.sending, p.ticket = q.ticket ∧ p.session = q.key.session) : u.KeepsOn id T := by
  refine ⟨by rw [hmade]; exact h.made, ?_, ?_⟩
  · intro p hp
    obtain ⟨q, hq, hticket, hsession⟩ := hsending p hp
    rw [hmade, ← hticket, ← hsession]
    exact h.sending q hq
  · intro q hq
    rw [hmade]
    rcases hpending q hq with hq | ⟨p, hp, hticket, hsession⟩
    · exact h.pending q hq
    · rw [← hticket, ← hsession]
      exact h.sending p hp

/-- A call that is handed over is on the session that it was handed over for. -/
lemma KeepsOn.beginSend (h : t.KeepsOn id T) (i : String) (call : Call) :
    (t.next (.beginSend i call)).KeepsOn id (T ++ if i == id then [t.calls.made] else []) := by
  have hold : ∀ k < t.calls.made, k ∈ T ++ (if i == id then [t.calls.made] else []) → k ∈ T := by
    intro k hk hmem
    rcases List.mem_append.mp hmem with hmem | hmem
    · exact hmem
    · split at hmem
      · exact absurd (List.mem_singleton.mp hmem) (Nat.ne_of_lt hk)
      · cases hmem
  have hmade : ∀ k ∈ T ++ (if i == id then [t.calls.made] else []), k < t.calls.made + 1 := by
    intro k hk
    rcases List.mem_append.mp hk with hk | hk
    · exact Nat.lt_succ_of_lt (h.made k hk)
    · split at hk
      · rw [List.mem_singleton.mp hk]
        exact Nat.lt_succ_self _
      · cases hk
  have hsending : ∀ p ∈ t.sending, p.ticket < t.calls.made + 1 ∧
      (p.ticket ∈ T ++ (if i == id then [t.calls.made] else []) → p.session = id) := by
    intro p hp
    obtain ⟨hlt, hid⟩ := h.sending p hp
    exact ⟨Nat.lt_succ_of_lt hlt, fun hmem => hid (hold _ hlt hmem)⟩
  have hpending : ∀ q ∈ t.calls.correlator.pending, q.ticket < t.calls.made + 1 ∧
      (q.ticket ∈ T ++ (if i == id then [t.calls.made] else []) → q.key.session = id) := by
    intro q hq
    obtain ⟨hlt, hid⟩ := h.pending q hq
    exact ⟨Nat.lt_succ_of_lt hlt, fun hmem => hid (hold _ hlt hmem)⟩
  rcases t.calls.begin_cases i call with ⟨o, hb⟩ | ⟨s, p, -, -, ht, rfl, hb⟩
  · simp only [next, hb, Option.toList_none, List.append_nil]
    exact ⟨hmade, hsending, hpending⟩
  · simp only [next, hb, Option.toList_some]
    refine ⟨hmade, ?_, hpending⟩
    intro q hq
    rcases List.mem_append.mp hq with hq | hq
    · exact hsending q hq
    · rw [List.mem_singleton.mp hq, ht]
      refine ⟨Nat.lt_succ_self _, fun hmem => ?_⟩
      rcases List.mem_append.mp hmem with hmem | hmem
      · exact absurd (h.made _ hmem) (Nat.lt_irrefl _)
      · split at hmem
        · next hid => exact beq_iff_eq.mp hid
        · cases hmem

lemma KeepsOn.next_of_not_isSending (h : t.KeepsOn id T) (hm : m.isSending = false) :
    (t.next m).KeepsOn id T := by
  obtain ⟨hmade, hsending, hpending⟩ := CallTasks.next_of_not_isSending (t := t) hm
  refine h.congr hmade ?_ fun q hq => Or.inl (hpending hq)
  rw [hsending]
  exact fun p hp => ⟨p, hp, rfl, rfl⟩

lemma KeepsOn.next (h : t.KeepsOn id T) (m : Move) :
    (t.next m).KeepsOn id (T ++ if m.isSendOn id then [t.calls.made] else []) := by
  cases m with
  | beginSend i call => exact h.beginSend i call
  | advance i now =>
    simp only [Move.isSendOn, Bool.false_eq_true, if_false, List.append_nil]
    rcases hp : t.sending[i]? with _ | p
    · rwa [next_advance_of_none hp]
    · have hmem := List.mem_of_getElem? hp
      rw [next_advance hp]
      refine h.congr (t.calls.made_advance now p) ?_ ?_
      · intro q hq
        rcases List.mem_or_eq_of_mem_set hq with hq | rfl
        · exact ⟨q, hq, rfl, rfl⟩
        · exact ⟨p, hmem, (t.calls.ticket_advance now p).symm,
            (t.calls.session_advance now p).symm⟩
      · intro q hq
        rcases mem_pending_advance hq with hq | ⟨n, deadline, -, -, rfl⟩
        · exact Or.inl hq
        · exact Or.inr ⟨p, hmem, rfl, rfl⟩
  | _ =>
    -- only sending makes calls or entries
    simp only [Move.isSendOn, Bool.false_eq_true, if_false, List.append_nil]
    exact h.next_of_not_isSending rfl

lemma KeepsOn.run (h : t.KeepsOn id T) (ms : List Move) :
    (t.run ms).KeepsOn id (T ++ t.madeOn id ms) := by
  induction ms generalizing t T with
  | nil => rwa [madeOn, List.append_nil]
  | cons m ms ih =>
    rw [madeOn, ← List.append_assoc]
    exact ih (h.next m)

end CallTasks

end RemoteCall
