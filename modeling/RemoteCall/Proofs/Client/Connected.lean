/-
# Which candidate is connected

The place of the active session and the status of its candidate are noted one after the other, so
that there are times between the two.  A supervisor that has found a session fills the place first
and then notes that the candidate is connected.  When the session is lost it frees the place first,
gives up the calls, and notes the loss last: all that time the candidate is noted as connected, and
no session is active.  What a client shows is told by the stage of its supervisor.
-/
import RemoteCall.Proofs.Client.Supervisors

namespace RemoteCall

namespace Factory

variable {f g : Factory} {stage : SupervisorStage}

/-- There is no active session, and no candidate is noted as connected. -/
structure Idle (f : Factory) : Prop where
  active : f.active = none
  statuses : ∀ i : Nat, f.statuses[i]? ≠ some .connected

lemma Idle.setStatus (h : f.Idle) (i : Nat) (status : ConnectionStatus)
    (hstatus : status ≠ .connected) : (f.setStatus i status).Idle := by
  refine ⟨h.active, fun j hj => ?_⟩
  rw [Factory.setStatus, List.getElem?_set] at hj
  split_ifs at hj
  · exact hstatus (Option.some.inj hj)
  · exact h.statuses j hj

/-- What a client shows of its active session while its supervisor is in a stage. -/
def Shows (f : Factory) : SupervisorStage → Prop
  | .placed i id => f.active = some (i, id) ∧ ∀ j : Nat, f.statuses[j]? ≠ some .connected
  | .watching id | .losing id =>
    ∃ i, f.active = some (i, id) ∧ ∀ j : Nat, f.statuses[j]? = some .connected → j = i
  | .failing _ n =>
    f.active = none ∧ ∀ j : Nat, f.statuses[j]? = some .connected → n = some j
  | .done => False
  | .checking | .considering .. | .attempting .. | .arriving .. | .pausing => f.Idle

lemma Shows.congr (h : f.Shows stage) (hactive : g.active = f.active)
    (hstatuses : g.statuses = f.statuses) : g.Shows stage := by
  have hidle : f.Idle → g.Idle := fun h =>
    ⟨hactive.trans h.active, by rw [hstatuses]; exact h.statuses⟩
  cases stage with
  | placed | watching | losing | failing =>
    simp only [Shows, hactive, hstatuses]
    exact h
  | done => exact h
  | _ => exact hidle h

/-- The candidate of the active session alone becomes connected. -/
lemma Shows.connected {i : Nat} {id : String} (h : f.Shows (.placed i id)) :
    (f.setStatus i .connected).Shows (.watching id) := by
  obtain ⟨hactive, hnone⟩ := h
  refine ⟨i, hactive, fun j hj => ?_⟩
  rw [setStatus, List.getElem?_set] at hj
  split_ifs at hj with hij
  · exact hij.symm
  · exact absurd hj (hnone j)

/-- Freeing the place leaves the candidate noted as connected. -/
lemma Shows.release {id : String} (h : f.Shows (.losing id)) :
    (f.release id).2.Shows (.failing id (f.release id).1) := by
  obtain ⟨i, hactive, hone⟩ := h
  rw [Factory.release, hactive]
  simp only [if_true]
  exact ⟨rfl, fun j hj => congrArg some (hone j hj).symm⟩

/-- When the loss is noted, nothing is left of the session. -/
lemma Shows.noteGone {id : String} {n : Option Nat} (h : f.Shows (.failing id n)) :
    (f.noteGone n).Idle := by
  obtain ⟨hactive, hone⟩ := h
  cases n with
  | none => exact ⟨hactive, fun j hj => by cases hone j hj⟩
  | some i =>
    refine ⟨hactive, fun j hj => ?_⟩
    rw [Factory.noteGone, setStatus, List.getElem?_set] at hj
    split_ifs at hj with hij
    · cases Option.some.inj hj
    · exact hij (Option.some.inj (hone j hj))

/-- A client without tasks. -/
def withoutTasks (f : Factory) : Supervision := { factory := f }

end Factory

namespace Supervision

variable {x : Supervision} {f : Factory} {probe : String → Bool} {m : Move}
  {stage stage' : SupervisorStage}

/-- The client is to look for sessions, and has one supervisor, whose stage tells what it shows. -/
def IsTended (x : Supervision) : Prop :=
  ∃ stage, x.supervisors = [stage] ∧ x.factory.running = true ∧ x.factory.Shows stage

/-- A client that is never stopped has no supervisor yet and is idle, or has one for good. -/
structure Steady (x : Supervision) : Prop where
  ordered : x.Ordered
  stops : x.stops = []
  tended : x.supervisors = [] ∧ x.factory.Idle ∨ x.IsTended

/-- There is no supervisor but the first one. -/
lemma eq_of_supervisors_eq (hx : x.supervisors = [stage]) {k : Nat}
    (hk : x.supervisors[k]? = some stage') : k = 0 ∧ stage = stage' := by
  rw [hx, List.getElem?_singleton] at hk
  split at hk
  · exact ⟨‹_›, Option.some.inj hk⟩
  · cases hk

lemma isTended_setSupervisor (hx : x.supervisors = [stage]) (hrunning : f.running = true)
    (h : f.Shows stage') : ({ x with factory := f }.setSupervisor 0 stage').IsTended := by
  refine ⟨stage', ?_, hrunning, h⟩
  rw [setSupervisor, hx]
  rfl

/-- What a client shows does not depend on its sessions. -/
lemma IsTended.onSession (h : x.IsTended) (id : String) (f : Session → Session) :
    (x.onSession id f).IsTended := by
  obtain ⟨stage, hx, hrunning, hshows⟩ := h
  exact ⟨stage, hx, hrunning, hshows.congr rfl rfl⟩

lemma isTended_consider {first offset : Nat} (hx : x.supervisors = [.considering first offset])
    (hrunning : x.factory.running = true) (h : x.factory.Idle) :
    (x.consider probe 0 first offset).IsTended := by
  rw [consider]
  split
  · exact isTended_setSupervisor hx hrunning h
  · dsimp only
    split
    · exact isTended_setSupervisor hx hrunning (h.setStatus _ .connecting (by decide))
    · exact isTended_setSupervisor hx hrunning (h.setStatus _ .failed (by decide))

/-- **A step of the supervisor keeps to what its stage says.** -/
lemma IsTended.stepSupervisor (h : x.IsTended) (k : Nat) (first : Bool) :
    (x.stepSupervisor probe k first).IsTended := by
  obtain ⟨stage, hx, hrunning, hshows⟩ := h
  have hsame : x.IsTended := ⟨stage, hx, hrunning, hshows⟩
  rcases hk : x.supervisors[k]? with _ | current
  · simp only [Supervision.stepSupervisor, hk]
    exact hsame
  obtain ⟨rfl, rfl⟩ := eq_of_supervisors_eq hx hk
  cases stage with
  | checking =>
    simp only [Supervision.stepSupervisor, hk, hrunning, if_true]
    exact isTended_setSupervisor hx hrunning hshows
  | considering start offset =>
    simp only [Supervision.stepSupervisor, hk]
    exact isTended_consider hx hrunning hshows
  | arriving i id =>
    simp only [Supervision.stepSupervisor, hk, arrive, hrunning, if_true]
    exact isTended_setSupervisor hx hrunning ⟨rfl, hshows.statuses⟩
  | placed i id =>
    simp only [Supervision.stepSupervisor, hk]
    exact isTended_setSupervisor hx hrunning hshows.connected
  | watching id =>
    simp only [Supervision.stepSupervisor, hk, hrunning, Bool.or_true, if_true]
    split
    · exact isTended_setSupervisor hx hrunning hshows
    · exact hsame
  | losing id =>
    obtain ⟨active, hactive⟩ := release_frame x.factory id
    have hreleased : (x.factory.release id).2.running = true := by
      rw [hactive]
      exact hrunning
    simp only [Supervision.stepSupervisor, hk]
    exact isTended_setSupervisor hx hreleased hshows.release
  | failing id n =>
    have hfailed : (x.factory.failCalls id "session lost").Shows (.failing id n) :=
      hshows.congr rfl rfl
    obtain ⟨statuses, hstatuses⟩ := noteGone_frame (x.factory.failCalls id "session lost") n
    have hgone : ((x.factory.failCalls id "session lost").noteGone n).running = true := by
      rw [hstatuses]
      exact hrunning
    simp only [Supervision.stepSupervisor, hk, hgone, if_true]
    exact isTended_setSupervisor hx hgone hfailed.noteGone
  | pausing =>
    simp only [Supervision.stepSupervisor, hk, hrunning, if_true]
    split
    · exact isTended_setSupervisor hx hrunning hshows
    · exact hsame
  | attempting start offset =>
    simp only [Supervision.stepSupervisor, hk]
    exact hsame
  | done => exact hshows.elim

lemma IsTended.attempted (h : x.IsTended) {k first offset : Nat}
    (hk : x.supervisors[k]? = some (.attempting first offset)) (outcome : Except Failure Session) :
    (x.attempted k first offset outcome).IsTended := by
  obtain ⟨stage, hx, hrunning, hshows⟩ := h
  obtain ⟨rfl, rfl⟩ := eq_of_supervisors_eq hx hk
  cases outcome with
  | ok s => exact isTended_setSupervisor hx hrunning ⟨hshows.active, hshows.statuses⟩
  | error e =>
    have hfailed := Factory.Idle.setStatus hshows (x.factory.candidateAt first offset) .failed
      (by decide)
    exact isTended_setSupervisor hx hrunning ⟨hfailed.active, hfailed.statuses⟩

lemma Steady.start (h : x.Steady) : x.start.Steady := by
  have hstops : ∀ t ∈ x.stops, t = .done := by
    rw [h.stops]
    exact fun t ht => absurd ht List.not_mem_nil
  refine ⟨h.ordered.start hstops, h.stops, ?_⟩
  rcases h.tended with ⟨hnone, hidle⟩ | ⟨stage, hx, -, hshows⟩
  · exact Or.inl ⟨hnone, hidle.active, hidle.statuses⟩
  · exact Or.inr ⟨stage, hx, rfl, hshows.congr rfl rfl⟩

/-- A start spawns a supervisor only where there is none. -/
lemma Steady.stepStart (h : x.Steady) (k : Nat) : (x.stepStart k).Steady := by
  have hordered := h.ordered.stepStart k
  rcases hk : x.starts[k]? with _ | (_ | n | _) <;>
    simp only [Supervision.stepStart, hk] at hordered ⊢
  · exact h
  · have hmem := List.mem_of_getElem? hk
    refine ⟨hordered, h.stops, Or.inr ?_⟩
    rcases h.tended with ⟨hnone, hidle⟩ | ⟨stage, hx, -, hshows⟩
    · have hrunning : x.factory.running = true := by
        by_contra hstopped
        cases h.ordered.stopped (Bool.eq_false_iff.mpr hstopped) _ hmem
      exact ⟨.checking, by rw [hnone, List.nil_append], hrunning, hidle⟩
    · have hstage : stage ≠ .done := by
        rintro rfl
        exact hshows
      exact absurd ⟨stage, by rw [hx]; rfl, hstage⟩ (h.ordered.spawning hmem 0)
  · exact ⟨hordered, h.stops, h.tended⟩
  · exact h

lemma Steady.stepSupervisor (h : x.Steady) (k : Nat) (first : Bool) :
    (x.stepSupervisor probe k first).Steady := by
  have hkeeps : x.KeepsTasks (x.stepSupervisor probe k first) :=
    x.keepsTasks_stepSupervisor k first
  refine ⟨h.ordered.of_keepsTasks hkeeps, hkeeps.stops.trans h.stops, ?_⟩
  rcases h.tended with ⟨hnone, hidle⟩ | htended
  · left
    have hk : x.supervisors[k]? = none := by rw [hnone]; rfl
    simp only [Supervision.stepSupervisor, hk]
    exact ⟨hnone, hidle⟩
  · exact Or.inr (htended.stepSupervisor k first)

lemma Steady.attempted (h : x.Steady) {k first offset : Nat}
    (hk : x.supervisors[k]? = some (.attempting first offset)) (outcome : Except Failure Session) :
    (x.attempted k first offset outcome).Steady := by
  have hkeeps := keepsTasks_attempted hk outcome
  refine ⟨h.ordered.of_keepsTasks hkeeps, hkeeps.stops.trans h.stops, Or.inr ?_⟩
  rcases h.tended with ⟨hnone, -⟩ | htended
  · rw [hnone] at hk
    cases hk
  · exact htended.attempted hk outcome

lemma Steady.onSession (h : x.Steady) (id : String) (f : Session → Session) :
    (x.onSession id f).Steady :=
  ⟨h.ordered.of_keepsTasks ⟨rfl, rfl, rfl, rfl, fun _ h => h⟩, h.stops,
    h.tended.imp (fun ⟨hnone, hidle⟩ => ⟨hnone, hidle.active, hidle.statuses⟩)
      fun h => h.onSession id f⟩

/-- **Every move but a stop keeps a client steady.** -/
lemma Steady.next (h : x.Steady) (hm : m ≠ .stop) : (next probe x m).Steady := by
  cases m with
  | start => exact h.start
  | stepStart k => exact h.stepStart k
  | stop => exact absurd rfl hm
  | stepStop k timeUp =>
    have hk : x.stops[k]? = none := by rw [h.stops]; rfl
    simp only [Supervision.next, stepStop, hk]
    exact h
  | stepSupervisor k first => exact h.stepSupervisor k first
  | attempted k outcome =>
    simp only [Supervision.next]
    split
    · exact h.attempted ‹_› outcome
    · exact h
  | lose id => exact h.onSession id Session.closed
  | suspend id => exact h.onSession id _

/-- The client after some steps, each with a probe of its own. -/
def runProbed (x : Supervision) (steps : List ((String → Bool) × Move)) : Supervision :=
  steps.foldl (fun x step => next step.1 x step.2) x

lemma Steady.runProbed (h : x.Steady) {steps : List ((String → Bool) × Move)}
    (hsteps : ∀ step ∈ steps, step.2 ≠ .stop) : (x.runProbed steps).Steady := by
  induction steps generalizing x with
  | nil => exact h
  | cons step steps ih =>
    obtain ⟨hstep, hrest⟩ := List.forall_mem_cons.mp hsteps
    exact ih (h.next hstep) hrest

lemma steady_withoutTasks (h : f.Idle) : f.withoutTasks.Steady :=
  ⟨ordered_of_nil rfl rfl rfl, rfl, Or.inl ⟨rfl, h⟩⟩

/-- A candidate that is noted as connected is that of the active session, or of one whose loss is
being noted; and there is no other one. -/
lemma Steady.connected (h : x.Steady) {i : Nat} (hi : x.factory.statuses[i]? = some .connected) :
    (∀ j : Nat, x.factory.statuses[j]? = some .connected → j = i) ∧
      ((∃ id, x.factory.active = some (i, id)) ∨
        x.factory.active = none ∧ ∃ id, .failing id (some i) ∈ x.supervisors) := by
  rcases h.tended with ⟨-, hidle⟩ | ⟨stage, hx, -, hshows⟩
  · exact absurd hi (hidle.statuses i)
  cases stage with
  | placed => exact absurd hi (hshows.2 i)
  | watching id | losing id =>
    obtain ⟨n, hactive, hone⟩ := hshows
    obtain rfl := hone i hi
    exact ⟨hone, Or.inl ⟨id, hactive⟩⟩
  | failing id n =>
    obtain ⟨hactive, hone⟩ := hshows
    obtain rfl := hone i hi
    refine ⟨fun j hj => (Option.some.inj (hone j hj)).symm, Or.inr ⟨hactive, id, ?_⟩⟩
    rw [hx]
    exact List.mem_singleton_self _
  | done => exact hshows.elim
  | _ => exact absurd hi (hshows.statuses i)

end Supervision

end RemoteCall
