/-
# One supervisor at a time

Starts and stops of a client come between each other, and between its supervisors.  Where no start
is called for while a stop is under way, and no stop while a start is, at most one supervisor is at
work at any time: the next one is spawned by a start, which finds that all stops have waited for the
supervisors before it.
-/
import Mathlib.Data.List.Basic
import RemoteCall.Client.Supervision
import RemoteCall.Proofs.Steps

namespace RemoteCall

/-- The supervisor that a stop is going to wait for. -/
def StopStage.supervisor? : StopStage → Option Nat
  | closing _ _ false n | lingering _ _ false n | failing _ _ false n | joining n => n
  | _ => none

namespace Supervision

variable {x x' : Supervision} {probe : String → Bool} {m : Move} {k : Nat}

/-- A start or a stop may be called for now. -/
def Allows (x : Supervision) : Move → Prop
  | .start => ∀ t ∈ x.stops, t = .done
  | .stop => ∀ a ∈ x.starts, a = .done
  | _ => True

instance (x : Supervision) : (m : Move) → Decidable (x.Allows m)
  | .start => inferInstanceAs (Decidable (∀ t ∈ x.stops, t = .done))
  | .stop => inferInstanceAs (Decidable (∀ a ∈ x.starts, a = .done))
  | .stepStart _ | .stepStop .. | .stepSupervisor .. | .attempted .. | .lose _ | .suspend _ =>
    inferInstanceAs (Decidable True)

/-- In a run, no start is called for while a stop is under way, and no stop while a start is. -/
def Orderly (probe : String → Bool) (x : Supervision) : List Move → Prop
  | [] => True
  | m :: ms => x.Allows m ∧ (next probe x m).Orderly probe ms

instance (probe : String → Bool) : (x : Supervision) → (ms : List Move) →
    Decidable (x.Orderly probe ms)
  | _, [] => inferInstanceAs (Decidable True)
  | x, m :: ms =>
    have := instDecidableOrderly probe (next probe x m) ms
    inferInstanceAs (Decidable (x.Allows m ∧ _))

/-! ## Who sees to a supervisor -/

/-- A supervisor is at work. -/
def IsBusy (x : Supervision) (k : Nat) : Prop :=
  ∃ stage, x.supervisors[k]? = some stage ∧ stage ≠ .done

/-- A start is under way. -/
def IsStarting (x : Supervision) (k : Nat) : Prop := ∃ a, x.starts[k]? = some a ∧ a ≠ .done

/-- At most one supervisor is at work.  The client keeps it for the next stop, the start that has
spawned it is going to leave it there, or a stop waits for it.  While the client is to look for
sessions, all stops are done; otherwise all starts are, and a supervisor that the client keeps is
about to be taken. -/
structure Ordered (x : Supervision) : Prop where
  one : ∀ k k', x.IsBusy k → x.IsBusy k' → k = k'
  known : ∀ k, x.IsBusy k → x.current = some k ∨ .storing k ∈ x.starts ∨
    ∃ t ∈ x.stops, t.supervisor? = some k
  oneStart : ∀ i j, x.IsStarting i → x.IsStarting j → i = j
  spawning : .spawning ∈ x.starts → ∀ k, ¬ x.IsBusy k
  storing : ∀ n, .storing n ∈ x.starts → ∀ k, x.IsBusy k → k = n
  running : x.factory.running = true → ∀ t ∈ x.stops, t = .done
  stopped : x.factory.running = false → ∀ a ∈ x.starts, a = .done
  taken : x.factory.running = false → .taking ∈ x.stops ∨ ∀ k, x.IsBusy k → x.current ≠ some k

namespace Ordered

variable {stage stage' a : SupervisorStage} (h : x.Ordered) (hk : x.supervisors[k]? = some stage)
  (hstage : stage ≠ .done)

include h hk hstage

/-- The supervisors other than the one at work are done. -/
lemma eq_or_done (ha : a ∈ x.supervisors) : a = stage ∨ a = .done := by
  obtain ⟨j, hj⟩ := List.mem_iff_getElem?.mp ha
  by_contra hne
  rw [not_or] at hne
  have hkj := h.one k j ⟨stage, hk, hstage⟩ ⟨a, hj, hne.2⟩
  subst hkj
  rw [hk] at hj
  exact hne.1 (Option.some.inj hj).symm

lemma eq_or_done_of_set (ha : a ∈ x.supervisors.set k stage') : a = stage' ∨ a = .done := by
  obtain ⟨j, hj⟩ := List.mem_iff_getElem?.mp ha
  by_cases hkj : k = j
  · subst hkj
    rw [List.getElem?_set_self (List.getElem?_eq_some_iff.mp hk).1] at hj
    exact Or.inl (Option.some.inj hj).symm
  · rw [List.getElem?_set_ne hkj] at hj
    by_contra hne
    rw [not_or] at hne
    exact hkj (h.one k j ⟨stage, hk, hstage⟩ ⟨a, hj, hne.2⟩)

end Ordered

/-- The starts and the stops are where they were, and no other supervisor is at work. -/
structure KeepsTasks (x x' : Supervision) : Prop where
  starts : x'.starts = x.starts
  stops : x'.stops = x.stops
  current : x'.current = x.current
  running : x'.factory.running = x.factory.running
  busy : ∀ k, x'.IsBusy k → x.IsBusy k

lemma KeepsTasks.refl (x : Supervision) : x.KeepsTasks x := ⟨rfl, rfl, rfl, rfl, fun _ h => h⟩

lemma Ordered.of_keepsTasks (h : x.Ordered) (hx : x.KeepsTasks x') : x'.Ordered := by
  obtain ⟨hstarts, hstops, hcurrent, hrunning, hbusy⟩ := hx
  refine ⟨fun k k' hk hk' => h.one k k' (hbusy k hk) (hbusy k' hk'), ?_, ?_, ?_, ?_, ?_, ?_, ?_⟩
  · rw [hcurrent, hstarts, hstops]
    exact fun k hk => h.known k (hbusy k hk)
  · simp only [IsStarting, hstarts]
    exact h.oneStart
  · rw [hstarts]
    exact fun hspawning k hk => h.spawning hspawning k (hbusy k hk)
  · rw [hstarts]
    exact fun n hn k hk => h.storing n hn k (hbusy k hk)
  · rw [hrunning, hstops]
    exact h.running
  · rw [hrunning, hstarts]
    exact h.stopped
  · rw [hrunning, hstops, hcurrent]
    exact fun hstopped => (h.taken hstopped).imp_right fun hk k hbusy' => hk k (hbusy k hbusy')

/-! ### What supervisors and sessions do -/

/-- The supervisor `k`, which is at work, goes to another stage.  Starts and stops are not
concerned. -/
structure SupervisorTurn (x : Supervision) (k : Nat) (stage stage' : SupervisorStage)
    (x' : Supervision) : Prop where
  place : x.supervisors[k]? = some stage
  busy : stage ≠ .done
  supervisors : x'.supervisors = x.supervisors.set k stage'
  starts : x'.starts = x.starts
  stops : x'.stops = x.stops
  current : x'.current = x.current
  running : x'.factory.running = x.factory.running

lemma turn_setSupervisor {stage stage' : SupervisorStage} {f : Factory} {told : List String}
    (hk : x.supervisors[k]? = some stage) (hstage : stage ≠ .done)
    (hrunning : f.running = x.factory.running) :
    x.SupervisorTurn k stage stage' ({ x with factory := f, told }.setSupervisor k stage') :=
  ⟨hk, hstage, rfl, rfl, rfl, rfl, hrunning⟩

lemma SupervisorTurn.keepsTasks {x' : Supervision} {stage stage' : SupervisorStage}
    (h : x.SupervisorTurn k stage stage' x') : x.KeepsTasks x' := by
  refine ⟨h.starts, h.stops, h.current, h.running, ?_⟩
  rintro j ⟨s, hj, hs⟩
  by_cases hjk : k = j
  · exact ⟨stage, hjk ▸ h.place, h.busy⟩
  · rw [h.supervisors, List.getElem?_set_ne hjk] at hj
    exact ⟨s, hj, hs⟩

/-- Telling a session that it is over is about the calls and the sessions told. -/
lemma tell_frame (x : Supervision) (id : String) :
    ∃ calls told, x.tell id = { x with factory := { x.factory with calls }, told } := by
  rw [tell]
  split
  · exact ⟨x.factory.calls, x.told, rfl⟩
  · split <;> exact ⟨_, _, rfl⟩

lemma keepsTasks_consider {first offset : Nat}
    (hk : x.supervisors[k]? = some (.considering first offset)) :
    x.KeepsTasks (x.consider probe k first offset) := by
  simp only [consider]
  repeat' split
  all_goals exact (turn_setSupervisor hk (by simp) (by rfl)).keepsTasks

lemma keepsTasks_arrive {i : Nat} {id : String}
    (hk : x.supervisors[k]? = some (.arriving i id)) : x.KeepsTasks (x.arrive k i id) := by
  rw [arrive]
  split
  · exact (turn_setSupervisor hk (by simp) (by rfl)).keepsTasks
  · obtain ⟨calls, told, heq⟩ := x.tell_frame id
    rw [heq]
    exact (turn_setSupervisor hk (by simp) (by rfl)).keepsTasks

lemma release_frame (f : Factory) (id : String) :
    ∃ active, (f.release id).2 = { f with active } := by
  rw [Factory.release]
  split
  · split <;> exact ⟨_, rfl⟩
  · exact ⟨_, rfl⟩

lemma noteGone_frame (f : Factory) (i : Option Nat) :
    ∃ statuses, f.noteGone i = { f with statuses } := by
  cases i <;> exact ⟨_, rfl⟩

lemma keepsTasks_stepSupervisor (x : Supervision) (k : Nat) (first : Bool) :
    x.KeepsTasks (x.stepSupervisor probe k first) := by
  rcases hk : x.supervisors[k]? with _ | stage
  · simp only [stepSupervisor, hk]
    exact .refl x
  rcases stage with _ | ⟨start, offset⟩ | _ | ⟨i, id⟩ | ⟨i, id⟩ | id | id | ⟨id, i⟩ | _ | _ <;>
    simp only [stepSupervisor, hk]
  case considering => exact keepsTasks_consider hk
  case arriving => exact keepsTasks_arrive hk
  case losing =>
    obtain ⟨active, heq⟩ := release_frame x.factory id
    rw [heq]
    exact (turn_setSupervisor hk (by simp) (by rfl)).keepsTasks
  case failing =>
    obtain ⟨statuses, heq⟩ := noteGone_frame (x.factory.failCalls id "session lost") i
    rw [heq]
    exact (turn_setSupervisor hk (by simp) (by rfl)).keepsTasks
  case attempting | done => exact .refl x
  all_goals
    repeat' split
    all_goals
      first
      | exact .refl x
      | exact (turn_setSupervisor hk (by simp) (by rfl)).keepsTasks

lemma keepsTasks_attempted {first offset : Nat}
    (hk : x.supervisors[k]? = some (.attempting first offset)) (outcome : Except Failure Session) :
    x.KeepsTasks (x.attempted k first offset outcome) := by
  cases outcome <;> exact (turn_setSupervisor hk (by simp) (by rfl)).keepsTasks

/-! ### Starts and stops -/

namespace Ordered

variable (h : x.Ordered)

include h

/-- When all starts and stops are done and the client is not to look for sessions, no supervisor is
at work. -/
lemma not_isBusy (hstopped : x.factory.running = false) (hstops : ∀ t ∈ x.stops, t = .done) :
    ∀ k, ¬ x.IsBusy k := by
  intro k hk
  rcases h.known k hk with hcurrent | hstoring | ⟨t, ht, hsupervisor⟩
  · rcases h.taken hstopped with htaking | hcurrent'
    · cases hstops _ htaking
    · exact hcurrent' k hk hcurrent
  · cases h.stopped hstopped _ hstoring
  · rw [hstops t ht] at hsupervisor
    cases hsupervisor

lemma start (hstops : ∀ t ∈ x.stops, t = .done) : x.start.Ordered := by
  cases hrunning : x.factory.running with
  | true =>
    have heq : x.start = { x with
        factory := { x.factory with running := true }, starts := x.starts ++ [.done] } := by
      rw [Supervision.start, hrunning, if_pos rfl]
    have hmem : ∀ a ∈ x.starts ++ [.done], a ≠ .done → a ∈ x.starts := fun a ha hdone =>
      (List.mem_append.mp ha).resolve_right fun ha => hdone (List.mem_singleton.mp ha)
    rw [heq]
    refine ⟨h.one, fun k hk => ?_, fun i j hi hj => ?_, fun ha => ?_, fun n hn => ?_,
      fun _ => hstops, nofun, nofun⟩
    · exact (h.known k hk).imp_right fun hk => hk.imp_left fun hk => List.mem_append_left _ hk
    · have hold : ∀ i a, (x.starts ++ [.done])[i]? = some a → a ≠ .done → x.IsStarting i := by
        intro i a ha hdone
        rcases getElem?_concat_cases ha with ha | ⟨-, ha⟩
        · exact ⟨a, ha, hdone⟩
        · exact absurd ha hdone
      obtain ⟨a, ha, hdone⟩ := hi
      obtain ⟨b, hb, hdone'⟩ := hj
      exact h.oneStart i j (hold i a ha hdone) (hold j b hb hdone')
    · exact h.spawning (hmem _ ha nofun)
    · exact h.storing n (hmem _ hn nofun)
  | false =>
    have hbusy := h.not_isBusy hrunning hstops
    have hstarts := h.stopped hrunning
    have heq : x.start = { x with
        factory := { x.factory with running := true }, starts := x.starts ++ [.spawning] } := by
      rw [Supervision.start, hrunning, if_neg Bool.false_ne_true]
    rw [heq]
    refine ⟨h.one, fun k hk => absurd hk (hbusy k), fun i j ⟨a, ha, hdone⟩ ⟨b, hb, hdone'⟩ => ?_,
      fun _ => hbusy, fun n _ k hk => absurd hk (hbusy k), fun _ => hstops, nofun, nofun⟩
    -- the start that is called for is the only one that is not done
    have hlast : ∀ i a, (x.starts ++ [.spawning])[i]? = some a → a ≠ .done →
        i = x.starts.length := by
      intro i a ha hdone
      rcases getElem?_concat_cases ha with ha | ⟨hi, -⟩
      · exact absurd (hstarts a (List.mem_of_getElem? ha)) hdone
      · exact hi
    rw [hlast i a ha hdone, hlast j b hb hdone']

/-- The only start that is not done goes on. -/
lemma eq_of_mem_set {a b c : StartStage} (hk : x.starts[k]? = some a) (ha : a ≠ .done)
    (hc : c ∈ x.starts.set k b) (hdone : c ≠ .done) : c = b := by
  obtain ⟨j, hj⟩ := List.mem_iff_getElem?.mp hc
  by_cases hjk : k = j
  · subst hjk
    obtain ⟨hlt, -⟩ := List.getElem?_eq_some_iff.mp hk
    rw [List.getElem?_set_self hlt] at hj
    exact (Option.some.inj hj).symm
  · rw [List.getElem?_set_ne hjk] at hj
    exact absurd (h.oneStart k j ⟨a, hk, ha⟩ ⟨c, hj, hdone⟩) hjk

lemma oneStart_of_set {a b : StartStage} (hk : x.starts[k]? = some a) (ha : a ≠ .done)
    (hstarts : x'.starts = x.starts.set k b) :
    ∀ i j, x'.IsStarting i → x'.IsStarting j → i = j := by
  have hold : ∀ i, x'.IsStarting i → x.IsStarting i := by
    rintro i ⟨c, hc, hdone⟩
    rw [hstarts] at hc
    by_cases hik : k = i
    · exact ⟨a, hik ▸ hk, ha⟩
    · rw [List.getElem?_set_ne hik] at hc
      exact ⟨c, hc, hdone⟩
  exact fun i j hi hj => h.oneStart i j (hold i hi) (hold j hj)

lemma stepStart (k : Nat) : (x.stepStart k).Ordered := by
  rcases hk : x.starts[k]? with _ | (_ | n | _) <;> simp only [Supervision.stepStart, hk]
  · exact h
  · -- a supervisor is spawned, which is the only one at work
    have hrunning : x.factory.running ≠ false := fun hstopped => by
      cases h.stopped hstopped _ (List.mem_of_getElem? hk)
    have hbusy : ∀ j, IsBusy { x with
        starts := x.starts.set k (.storing x.supervisors.length)
        supervisors := x.supervisors ++ [.checking] } j → j = x.supervisors.length := by
      rintro j ⟨stage, hj, hstage⟩
      rcases getElem?_concat_cases hj with hj | ⟨hj, -⟩
      · exact absurd ⟨stage, hj, hstage⟩ (h.spawning (List.mem_of_getElem? hk) j)
      · exact hj
    refine ⟨fun j j' hj hj' => (hbusy j hj).trans (hbusy j' hj').symm, fun j hj => ?_,
      h.oneStart_of_set hk nofun rfl, fun hspawning => ?_, fun n hn j hj => ?_, h.running,
      fun hstopped => absurd hstopped hrunning, fun hstopped => absurd hstopped hrunning⟩
    · rw [hbusy j hj]
      exact Or.inr (Or.inl (mem_set_self hk _))
    · cases h.eq_of_mem_set hk nofun hspawning nofun
    · cases h.eq_of_mem_set hk nofun hn nofun
      exact hbusy j hj
  · have hrunning : x.factory.running ≠ false := fun hstopped => by
      cases h.stopped hstopped _ (List.mem_of_getElem? hk)
    have hdone : ∀ a ∈ x.starts.set k .done, a = .done := by
      intro a ha
      by_contra hne
      exact hne (h.eq_of_mem_set hk nofun ha hne)
    refine ⟨h.one, fun j hj => ?_, h.oneStart_of_set hk nofun rfl, fun ha => ?_, fun n hn => ?_,
      h.running, fun _ => hdone, fun hstopped => absurd hstopped hrunning⟩
    · left
      rw [h.storing n (List.mem_of_getElem? hk) j hj]
    · cases hdone _ ha
    · cases hdone _ hn
  · exact h

lemma stop (hstarts : ∀ a ∈ x.starts, a = .done) : x.stop.Ordered := by
  refine ⟨h.one, fun k hk => ?_, h.oneStart, h.spawning, h.storing, nofun, fun _ => hstarts,
    fun _ => Or.inl (List.mem_append_right _ (List.mem_singleton_self _))⟩
  refine (h.known k hk).imp_right fun hk => hk.imp_right fun ⟨t, ht, hsupervisor⟩ => ?_
  exact ⟨t, List.mem_append_left _ ht, hsupervisor⟩

end Ordered

/-- The stop `k`, which is under way, goes to another stage.  Supervisors and starts are not
concerned. -/
structure StopTurn (x : Supervision) (k : Nat) (t t' : StopStage) (x' : Supervision) : Prop where
  place : x.stops[k]? = some t
  busy : t ≠ .done
  stops : x'.stops = x.stops.set k t'
  supervisors : x'.supervisors = x.supervisors
  starts : x'.starts = x.starts
  running : x'.factory.running = x.factory.running

lemma turn_setStop {t t' : StopStage} {f : Factory} {told : List String} {current : Option Nat}
    (hk : x.stops[k]? = some t) (ht : t ≠ .done) (hrunning : f.running = x.factory.running) :
    x.StopTurn k t t' ({ x with factory := f, told, current }.setStop k t') :=
  ⟨hk, ht, rfl, rfl, rfl, hrunning⟩

/-- What a step of a stop does to the tasks.  Its first step takes the supervisor, and it goes on
waiting for that one as long as it is at work. -/
lemma stepStop_cases (x : Supervision) (k : Nat) (timeUp : Bool) :
    x.stepStop k timeUp = x ∨ ∃ t t', x.StopTurn k t t' (x.stepStop k timeUp) ∧
      (t = .taking ∧ (x.stepStop k timeUp).current = none ∧ t'.supervisor? = x.current ∨
        t ≠ .taking ∧ (x.stepStop k timeUp).current = x.current ∧
          ∀ n, t.supervisor? = some n → x.IsBusy n → t'.supervisor? = some n) := by
  rcases hk : x.stops[k]? with _ | t
  · exact Or.inl (by simp only [stepStop, hk])
  rcases t with _ | ⟨i, id, late, n⟩ | ⟨i, id, late, n⟩ | ⟨i, id, late, n⟩ | n | _ | _ <;>
    simp only [stepStop, hk]
  case taking =>
    rcases hactive : x.factory.active with _ | ⟨i, id⟩ <;> simp only [takeActive, hactive] <;>
      exact Or.inr ⟨_, _, turn_setStop hk (by simp) (by rfl), Or.inl ⟨rfl, rfl, rfl⟩⟩
  case closing =>
    obtain ⟨calls, told, heq⟩ := x.tell_frame id
    rw [heq]
    refine Or.inr ⟨_, _, turn_setStop hk (by simp) (by rfl),
      Or.inr ⟨by simp, rfl, fun m hm _ => ?_⟩⟩
    cases late <;> exact hm
  case lingering =>
    have hwaits : ∀ m, (StopStage.lingering i id late n).supervisor? = some m →
        (StopStage.failing i id late n).supervisor? = some m := by
      cases late <;> exact fun m hm => hm
    split
    · exact Or.inr ⟨_, _, turn_setStop hk (by simp) (by rfl),
        Or.inr ⟨by simp, rfl, fun m hm _ => hwaits m hm⟩⟩
    · split
      · exact Or.inr ⟨_, _, turn_setStop hk (by simp) (by rfl),
          Or.inr ⟨by simp, rfl, fun m hm _ => hwaits m hm⟩⟩
      · exact Or.inl rfl
  case failing =>
    refine Or.inr ⟨_, _, turn_setStop hk (by simp) (by rfl),
      Or.inr ⟨by simp, rfl, fun m hm _ => ?_⟩⟩
    cases late with
    | false => exact hm
    | true => cases hm
  case joining =>
    split
    · rename_i hdone
      refine Or.inr ⟨_, _, turn_setStop hk (by simp) (by rfl),
        Or.inr ⟨by simp, rfl, fun m hm hbusy => ?_⟩⟩
      -- the supervisor that is waited for is done
      obtain ⟨stage, hm', hstage⟩ := hbusy
      have hn : n = some m := hm
      rw [hn, Option.all_some, hm', beq_iff_eq, Option.some.injEq] at hdone
      exact absurd hdone hstage
    · exact Or.inl rfl
  case takingLate =>
    rcases hactive : x.factory.active with _ | ⟨i, id⟩ <;> simp only [takeActive, hactive] <;>
      exact Or.inr ⟨_, _, turn_setStop hk (by simp) (by rfl),
        Or.inr ⟨by simp, rfl, fun m hm => by cases hm⟩⟩
  case done => exact Or.inl trivial

namespace Ordered

variable (h : x.Ordered)

include h

lemma stepStop (k : Nat) (timeUp : Bool) : (x.stepStop k timeUp).Ordered := by
  rcases x.stepStop_cases k timeUp with
    heq | ⟨t, t', ⟨hk, hdone, hstops, hsupervisors, hstarts, hrunning⟩, hcurrent⟩
  · rwa [heq]
  -- a stop that goes on shows that the client is not to look for sessions
  have hstopped : x.factory.running = false := by
    cases hr : x.factory.running with
    | false => rfl
    | true => exact absurd (h.running hr t (List.mem_of_getElem? hk)) hdone
  have hbusy : ∀ j, (x.stepStop k timeUp).IsBusy j ↔ x.IsBusy j := by
    intro j
    rw [IsBusy, hsupervisors, IsBusy]
  refine ⟨fun i j hi hj => h.one i j ((hbusy i).mp hi) ((hbusy j).mp hj), fun j hj => ?_, ?_,
    fun ha j hj => ?_, fun n hn j hj => ?_, fun hr => ?_, ?_, fun _ => ?_⟩
  · rw [hbusy] at hj
    rw [hstarts, hstops]
    have hstop : t'.supervisor? = some j → ∃ t ∈ x.stops.set k t', t.supervisor? = some j :=
      fun hj => ⟨t', mem_set_self hk t', hj⟩
    rcases h.known j hj with hcur | hstoring | ⟨u, hu, hj'⟩
    · rcases hcurrent with ⟨-, -, htakes⟩ | ⟨-, hsame, -⟩
      · exact Or.inr (Or.inr (hstop (htakes.trans hcur)))
      · exact Or.inl (hsame.trans hcur)
    · exact Or.inr (Or.inl hstoring)
    · by_cases hut : u = t
      · subst hut
        rcases hcurrent with ⟨rfl, -, -⟩ | ⟨-, -, hwaits⟩
        · cases hj'
        · exact Or.inr (Or.inr (hstop (hwaits j hj' hj)))
      · exact Or.inr (Or.inr ⟨u, mem_set_of_ne hk hu hut t', hj'⟩)
  · simp only [IsStarting, hstarts]
    exact h.oneStart
  · rw [hstarts] at ha
    exact h.spawning ha j ((hbusy j).mp hj)
  · rw [hstarts] at hn
    exact h.storing n hn j ((hbusy j).mp hj)
  · rw [hrunning, hstopped] at hr
    cases hr
  · rw [hrunning, hstarts]
    exact h.stopped
  · rw [hstops]
    rcases hcurrent with ⟨-, hnone, -⟩ | ⟨htaking, hsame, -⟩
    · right
      rw [hnone]
      exact fun _ _ => nofun
    · rw [hsame]
      refine (h.taken hstopped).imp (fun ht => ?_) fun hcur j hj => hcur j ((hbusy j).mp hj)
      exact mem_set_of_ne hk ht (Ne.symm htaking) t'

/-- **Every move that is allowed keeps the order**, whatever supervisors and sessions do. -/
lemma next (hm : x.Allows m) : (next probe x m).Ordered := by
  cases m with
  | start => exact h.start hm
  | stepStart k => exact h.stepStart k
  | stop => exact h.stop hm
  | stepStop k timeUp => exact h.stepStop k timeUp
  | stepSupervisor k first => exact h.of_keepsTasks (x.keepsTasks_stepSupervisor k first)
  | attempted k outcome =>
    simp only [Supervision.next]
    split
    · exact h.of_keepsTasks (keepsTasks_attempted ‹_› outcome)
    · exact h
  | lose id => exact h.of_keepsTasks ⟨rfl, rfl, rfl, rfl, fun _ h => h⟩
  | suspend id => exact h.of_keepsTasks ⟨rfl, rfl, rfl, rfl, fun _ h => h⟩

end Ordered

/-- A client without tasks. -/
lemma ordered_of_nil (hsupervisors : x.supervisors = []) (hstarts : x.starts = [])
    (hstops : x.stops = []) : x.Ordered := by
  have hbusy : ∀ k, ¬ x.IsBusy k := by
    rintro k ⟨stage, hk, -⟩
    rw [hsupervisors] at hk
    cases hk
  refine ⟨fun k _ hk => absurd hk (hbusy k), fun k hk => absurd hk (hbusy k), ?_, fun _ => hbusy,
    fun n _ k hk => absurd hk (hbusy k), ?_, fun _ => ?_,
    fun _ => Or.inr fun k hk => absurd hk (hbusy k)⟩
  · rintro i j ⟨a, ha, -⟩
    rw [hstarts] at ha
    cases ha
  · rw [hstops]
    exact nofun
  · rw [hstarts]
    exact nofun

end Supervision

end RemoteCall
