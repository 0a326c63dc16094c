/-
# No call is left behind when its session is lost

The task that gives up the calls of a session lists their places and then takes them out one after
the other.  A call that found the session active before it was lost may be entered after the list
was made.  Nothing is left behind all the same, because of the order of the steps on both sides:
the session is over before the list is made, and a call looks at the session once more after it
was entered.  So every entry is on the list, or its own call has yet to look and will take it out.
-/
import RemoteCall.Proofs.Client.Tasks

namespace RemoteCall

namespace Calls

variable {x : Calls} {id : String} {p : Sending} {now : Duration}

/-- A session is over. -/
def Over (x : Calls) (id : String) : Prop := ∃ s, x.session? id = some s ∧ s.state = .disconnected

lemma Over.onSession (h : x.Over id) {i : String} {f : Session → Session}
    (hf : ∀ s, x.session? i = some s → s.state = .disconnected → (f s).state = .disconnected) :
    (x.onSession i f).Over id := by
  obtain ⟨s, hs, hstate⟩ := h
  by_cases hi : id = i
  · subst hi
    exact ⟨f s, session?_onSession_self hs f, hf s hs hstate⟩
  · exact ⟨s, (session?_onSession_of_ne hi f).trans hs, hstate⟩

lemma Over.resolve (h : x.Over id) (key : CallKey) (f : Pending → Outcome) :
    (x.resolve key f).2.Over id := by
  rcases x.resolve_cases key f with ⟨hy, -⟩ | ⟨p, -, -, hy⟩
  · rwa [hy]
  · rw [hy]
    exact Over.onSession (x := x) h fun s _ hs => hs

lemma Over.advance (h : x.Over id) (now : Duration) (p : Sending) :
    (x.advance now p).1.Over id := by
  rcases x.advance_cases now p with hy | ⟨f, hy, hf⟩ | ⟨n, deadline, -, -, hy⟩ |
    ⟨n, e, -, hy⟩ <;> rw [hy]
  · exact h
  · exact h.onSession fun s hs hstate => (hf s hs).trans hstate
  · exact h
  · exact h.resolve _ _

/-- The call has been entered at a place, and has yet to find that its session is over or to take
its entry out again. -/
def Sending.Guards (p : Sending) (key : CallKey) : Prop :=
  key.session = p.session ∧
    (p.stage = .entered key.correlation ∨ ∃ e, p.stage = .refused key.correlation e)

/-- A call on a session that is over guards its entry until the entry is taken out. -/
lemma Sending.Guards.advance {q : Pending} (hp : p.Guards q.key) (hover : x.Over p.session)
    (hq : q ∈ (x.advance now p).1.correlator.pending) : (x.advance now p).2.Guards q.key := by
  obtain ⟨hsession, hstage | ⟨e, hstage⟩⟩ := hp
  · obtain ⟨s, hs, hstate⟩ := hover
    have hpass : s.letPass = .error
        (.communicationFailure ("session " ++ s.id ++ " is disconnected")) := by
      simp [Session.letPass, hstate, SessionState.isTerminal]
    rw [advance_entered_refused hstage hs hpass]
    exact ⟨hsession, Or.inr ⟨_, rfl⟩⟩
  · -- taking the entry out leaves none at the place
    rw [advance_refused hstage] at hq
    exact absurd (by rw [← hsession]) (mem_pending_resolve hq).2

lemma guards_entry {n : UInt64} {deadline : Duration} (hp : p.stage = .counted n)
    (hdeadline : p.terms.deadline? now = some deadline) :
    (x.advance now p).2.Guards (p.entry deadline n).key := by
  rw [advance_counted hp hdeadline]
  exact ⟨rfl, Or.inl rfl⟩

end Calls

namespace CallTasks

open Calls

variable {t u : CallTasks} {id : String} {k : Nat}

/-- A session is over, and each entry of it is still to be looked at by the task at the index `k`
that clears out entries, or is guarded by its own call. -/
structure Closing (t : CallTasks) (id : String) (k : Nat) : Prop where
  lost : t.calls.Over id
  covered : ∃ c, t.clearing[k]? = some c ∧
    ∀ q ∈ t.calls.correlator.pending, q.key.session = id →
      q.key ∈ c.keys ∨ ∃ p ∈ t.sending, p.Guards q.key

/-- The task that gives up the calls of a session that is over lists all entries there are. -/
lemma closing_beginFail (hover : t.calls.Over id) (reason : String) :
    (t.next (.beginFail id reason)).Closing id t.clearing.length := by
  refine ⟨hover, t.calls.beginFail id reason, List.getElem?_concat_length, ?_⟩
  intro q hq hid
  left
  exact List.mem_map_of_mem (List.mem_filter.mpr ⟨hq, beq_iff_eq.mpr hid⟩)

lemma Closing.congr (h : t.Closing id k) (hover : u.calls.Over id)
    (hpending : u.calls.correlator.pending ⊆ t.calls.correlator.pending)
    (hsending : t.sending ⊆ u.sending)
    (hclearing : ∀ c, t.clearing[k]? = some c → u.clearing[k]? = some c) : u.Closing id k := by
  obtain ⟨c, hc, hcovered⟩ := h.covered
  refine ⟨hover, c, hclearing c hc, fun q hq hid => ?_⟩
  rcases hcovered q (hpending hq) hid with hkey | ⟨p, hp, hguards⟩
  · exact Or.inl hkey
  · exact Or.inr ⟨p, hsending hp, hguards⟩

lemma Closing.advance (h : t.Closing id k) (i : Nat) (now : Duration) :
    (t.next (.advance i now)).Closing id k := by
  rcases hp : t.sending[i]? with _ | p
  · rwa [next_advance_of_none hp]
  obtain ⟨c, hc, hcovered⟩ := h.covered
  obtain ⟨hi, rfl⟩ := List.getElem?_eq_some_iff.mp hp
  rw [next_advance hp]
  refine ⟨h.lost.advance now _, c, hc, fun q hq hid => ?_⟩
  have hset := List.mem_set hi (t.calls.advance now t.sending[i]).2
  rcases mem_pending_advance hq with hold | ⟨n, deadline, hstage, hdeadline, rfl⟩
  · rcases hcovered q hold hid with hkey | ⟨r, hr, hguards⟩
    · exact Or.inl hkey
    · -- the call that guards the entry takes the step itself, or is another one
      obtain ⟨j, hj, rfl⟩ := List.mem_iff_getElem.mp hr
      right
      by_cases hij : i = j
      · subst hij
        have hover : t.calls.Over t.sending[i].session := by
          rw [← hguards.1, hid]
          exact h.lost
        exact ⟨_, hset, hguards.advance hover hq⟩
      · refine ⟨t.sending[j], List.mem_iff_getElem.mpr ⟨j, by simpa using hj, ?_⟩, hguards⟩
        exact List.getElem_set_ne hij _
  · exact Or.inr ⟨_, hset, guards_entry hstage hdeadline⟩

lemma Closing.clearOne (h : t.Closing id k) (i : Nat) :
    (t.next (.clearOne i)).Closing id k := by
  rcases t.next_clearOne_cases i with hy | ⟨c, c', key, hc, hkeys, hy⟩ <;> rw [hy]
  · exact h
  have hover := h.lost.resolve key c.reason.outcome
  by_cases hik : i = k
  · -- the entry at the place that the task looks at is gone
    subst hik
    obtain ⟨d, hd, hcovered⟩ := h.covered
    cases hc.symm.trans hd
    obtain ⟨hi, -⟩ := List.getElem?_eq_some_iff.mp hc
    refine ⟨hover, c', by simp [hi], fun q hq hid => ?_⟩
    obtain ⟨hold, hne⟩ := mem_pending_resolve hq
    rcases hcovered q hold hid with hkey | hguards
    · rw [hkeys] at hkey
      exact Or.inl ((List.mem_cons.mp hkey).resolve_left hne)
    · exact Or.inr hguards
  · refine h.congr hover (fun q hq => (mem_pending_resolve hq).1) (List.Subset.refl _) ?_
    intro d hd
    simpa [List.getElem?_set_ne hik] using hd

/-- **Every step keeps every entry of a lost session listed or guarded.** -/
lemma Closing.next (h : t.Closing id k) (m : Move) : (t.next m).Closing id k := by
  have happend : ∀ (l : List Clearing) c, t.clearing[k]? = some c →
      (t.clearing ++ l)[k]? = some c := by
    intro l c hc
    rw [List.getElem?_append_left (List.getElem?_eq_some_iff.mp hc).1, hc]
  cases m with
  | beginSend i call =>
    rcases t.calls.begin_cases i call with ⟨o, hb⟩ | ⟨s, p, -, -, -, -, hb⟩ <;>
      simp only [CallTasks.next, hb]
    all_goals
      exact h.congr h.lost (List.Subset.refl _) (List.subset_append_left _ _) fun c hc => hc
  | advance i now => exact h.advance i now
  | answer i frame =>
    exact h.congr (h.lost.resolve _ _) (fun q hq => (mem_pending_resolve hq).1)
      (List.Subset.refl _) fun c hc => hc
  | beginSweep now =>
    exact h.congr h.lost (List.Subset.refl _) (List.Subset.refl _) (happend _)
  | beginFail i reason =>
    exact h.congr h.lost (List.Subset.refl _) (List.Subset.refl _) (happend _)
  | clearOne i => exact h.clearOne i
  | perform i call =>
    refine h.congr ?_ (List.Subset.refl _) (List.Subset.refl _) fun c hc => hc
    exact h.lost.onSession fun s _ hs => s.state_perform_of_disconnected hs call
  | dropQueue i =>
    refine h.congr ?_ (List.Subset.refl _) (List.Subset.refl _) fun c hc => hc
    exact h.lost.onSession fun s _ hs => hs

lemma Closing.run (h : t.Closing id k) (ms : List Move) : (t.run ms).Closing id k := by
  induction ms generalizing t with
  | nil => exact h
  | cons m ms ih => exact ih (h.next m)

/-- The calls that were handed over have returned, as far as they are on a session. -/
def AllReturned (t : CallTasks) (id : String) : Prop :=
  ∀ p ∈ t.sending, p.session = id → p.stage = .returned

/-- The task at an index that clears out entries has looked at all its places. -/
def HasCleared (t : CallTasks) (k : Nat) : Prop := ∀ c, t.clearing[k]? = some c → c.keys = []

lemma Closing.session_ne (h : t.Closing id k) (hcleared : t.HasCleared k)
    (hreturned : t.AllReturned id) : ∀ q ∈ t.calls.correlator.pending, q.key.session ≠ id := by
  intro q hq hid
  obtain ⟨c, hc, hcovered⟩ := h.covered
  rcases hcovered q hq hid with hkey | ⟨p, hp, hsession, hstage⟩
  · rw [hcleared c hc] at hkey
    exact List.not_mem_nil hkey
  · have hdone := hreturned p hp (hsession.symm.trans hid)
    rw [hdone] at hstage
    rcases hstage with hstage | ⟨e, hstage⟩ <;> cases hstage

lemma keepsOn_new {x : Calls} (hx : x.IsNew) (id : String) : KeepsOn { calls := x } id [] := by
  refine ⟨by simp, by simp, ?_⟩
  rw [hx.pending]
  simp

/-- When all calls on a session have returned and none waits, the session counts none. -/
lemma outstanding_eq_zero {a : List (Nat × CallKey)} (h : t.calls.Accounted t.sending a)
    (hreturned : t.AllReturned id) (hnone : ∀ q ∈ t.calls.correlator.pending, q.key.session ≠ id)
    {s : Session} (hs : t.calls.session? id = some s) : s.outstanding = 0 := by
  have hpending : t.calls.correlator.pending.countP (fun q => q.key.session == id) = 0 := by
    simpa [List.countP_eq_zero] using hnone
  have hsending : t.sending.countP (fun p => p.isCounted && p.session == id) = 0 := by
    rw [List.countP_eq_zero]
    intro p hp hcounts
    obtain ⟨hcounted, hid⟩ := Bool.and_eq_true_iff.mp hcounts
    rw [Sending.isCounted, hreturned p hp (beq_iff_eq.mp hid)] at hcounted
    cases hcounted
  rw [h.outstanding id s hs, due, hpending, hsending]

/-- When all calls on a session have returned and none waits, each of them has ended. -/
lemma ended_of_mem {a : List (Nat × CallKey)} (h : t.calls.Accounted t.sending a)
    (hreturned : t.AllReturned id) (hnone : ∀ q ∈ t.calls.correlator.pending, q.key.session ≠ id)
    {T : List Nat} (hT : t.KeepsOn id T) {n : Nat} (hn : n ∈ T) : ∃ o, t.calls.Ended n o := by
  have hheld : ∀ p ∈ t.sending, p.ticket = n → p.holds = false := by
    rintro p hp rfl
    rw [Sending.holds, hreturned p hp ((hT.sending p hp).2 hn)]
  rcases waits_or_ended (h.once n (hT.made n hn)) hheld with ⟨q, hticket, hwaits⟩ | hended
  · exact absurd ((hT.pending q hwaits.mem).2 (hticket ▸ hn)) (hnone q hwaits.mem)
  · exact hended

/-- **No call is left behind when its session is lost**: when a task that gives up the calls of a
session has begun once the session was over, and has ended, and all calls on the session have
returned, then none of them waits any more; and unless a session has used up its numbers, the
session counts no call, and each call that was made on it has ended with one outcome. -/
theorem none_left_on_lost_session {x : Calls} (hx : x.IsNew) {before after : List Move}
    {id reason : String} (ht : t = run { calls := x } before)
    (hu : u = run t (.beginFail id reason :: after)) (hover : t.calls.Over id)
    (hcleared : u.HasCleared t.clearing.length) (hreturned : u.AllReturned id) :
    (∀ q ∈ u.calls.correlator.pending, q.key.session ≠ id) ∧
      ((∀ i, (before ++ after).countP (Move.isSendOn i) < 2 ^ 64 - 1) →
        (∃ s, u.calls.session? id = some s ∧ s.state = .disconnected ∧ s.outstanding = 0) ∧
          ∀ n ∈ madeOn { calls := x } id (before ++ .beginFail id reason :: after),
            ∃ o, u.calls.Ended n o) := by
  have hrun : u = run { calls := x } (before ++ .beginFail id reason :: after) := by
    rw [hu, ht, run, run, run, List.foldl_append]
  have hclosing : u.Closing id t.clearing.length := by
    rw [hu]
    exact (closing_beginFail hover reason).run after
  have hnone := hclosing.session_ne hcleared hreturned
  refine ⟨hnone, fun hsends => ?_⟩
  have hroom : HasRoom [] [] (before ++ .beginFail id reason :: after) := by
    intro i
    have hi := hsends i
    rw [List.countP_append] at hi
    simp only [List.countP_append, List.countP_cons, Move.isSendOn, List.countP_nil]
    simp
    omega
  obtain ⟨a, ha⟩ := accounted_run (t := { calls := x }) hx.accounted hroom
  rw [← hrun] at ha
  have hkeeps := (keepsOn_new hx id).run (before ++ .beginFail id reason :: after)
  rw [← hrun, List.nil_append] at hkeeps
  obtain ⟨s, hs, hstate⟩ := hclosing.lost
  exact ⟨⟨s, hs, hstate, outstanding_eq_zero ha hreturned hnone hs⟩,
    fun n hn => ended_of_mem ha hreturned hnone hkeeps hn⟩

/-- A call that waits when its session is lost, one that found the session active and is entered
after the places were listed, and one that comes too late. -/
theorem none_left_on_lost_session_race :
    let s : Session :=
      { id := "s", role := .client, remote := .v4 127 0 0 1 9000, version := some .oldest
        state := .active }
    let x : Calls :=
      { correlator := { registry := {}, callTimeout := ⟨10⟩ }, sessions := [("s", s)] }
    let call : Call := { request := { key := ⟨"S", "1", "f"⟩, context := {}, arguments := {} } }
    let before : List Move := .beginSend "s" call :: List.replicate 5 (.advance 0 ⟨0⟩) ++
      [.beginSend "s" call, .advance 1 ⟨1⟩, .perform "s" .forceDisconnect]
    let after : List Move := [.advance 1 ⟨2⟩, .advance 1 ⟨2⟩, .clearOne 0, .advance 1 ⟨3⟩,
      .beginSend "s" call, .advance 1 ⟨3⟩]
    let t := run { calls := x } before
    let u := run t (.beginFail "s" "gone" :: after)
    x.IsNew ∧ t.calls.Over "s" ∧ u.HasCleared t.clearing.length ∧ u.AllReturned "s" ∧
      (∀ i, (before ++ after).countP (Move.isSendOn i) < 2 ^ 64 - 1) ∧
      (∀ q ∈ u.calls.correlator.pending, q.key.session ≠ "s") ∧
      (∃ s, u.calls.session? "s" = some s ∧ s.state = .disconnected ∧ s.outstanding = 0) ∧
      ∀ n ∈ [0, 1, 2], ∃ o, u.calls.Ended n o := by
  intro s x call before after t u
  have hx : x.IsNew := isNew_of_forall ⟨rfl, rfl⟩ rfl (by decide)
  have hover : t.calls.Over "s" := by
    have hstate : (t.calls.session? "s").map Session.state = some .disconnected := by
      decide +kernel
    exact Option.map_eq_some_iff.mp hstate
  have hcleared : u.HasCleared t.clearing.length := by
    have hkeys : u.clearing[t.clearing.length]?.map Clearing.keys = some [] := by decide +kernel
    intro c hc
    rw [hc] at hkeys
    exact Option.some.inj hkeys
  have hreturned : u.AllReturned "s" := by
    unfold AllReturned
    decide +kernel
  have hsends : ∀ i, (before ++ after).countP (Move.isSendOn i) < 2 ^ 64 - 1 :=
    fun i => Nat.lt_of_le_of_lt List.countP_le_length (by decide)
  have ht : t = run { calls := x } before := rfl
  have hu : u = run t (.beginFail "s" "gone" :: after) := rfl
  obtain ⟨hnone, hall⟩ := none_left_on_lost_session hx ht hu hover hcleared hreturned
  obtain ⟨hcount, hended⟩ := hall hsends
  have hmade :
      madeOn { calls := x } "s" (before ++ .beginFail "s" "gone" :: after) = [0, 1, 2] := by
    decide +kernel
  rw [hmade] at hended
  exact ⟨hx, hover, hcleared, hreturned, hsends, hnone, hcount, hended⟩

end CallTasks

end RemoteCall
