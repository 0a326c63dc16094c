/-
# One live session at a time

Every session that a client makes goes through a few hands until it is told that it is over: the
supervisor that has made it, the place of the active session, and the stop that takes it from there.
A session that no hand holds is over, or has been told so.  With one supervisor at work at a time,
the hands never hold two sessions.
-/
import RemoteCall.Proofs.Client.Supervisors
import RemoteCall.Proofs.Client.Views

namespace RemoteCall

/-- The session that a supervisor has made and not put into its place yet. -/
def SupervisorStage.arrives? : SupervisorStage → Option String
  | arriving _ id => some id
  | _ => none

/-- The session that a stop is about to tell that it is over. -/
def StopStage.closes? : StopStage → Option String
  | closing _ id _ _ => some id
  | _ => none

namespace Supervision

variable {x x' y : Supervision} {probe : String → Bool} {m : Move} {k : Nat} {id : String}
  {f : Session → Session}

/-! ## The states of sessions -/

/-- The state of a session. -/
def state? (x : Supervision) (id : String) : Option SessionState :=
  (x.factory.calls.session? id).map Session.state

/-- Requests and their answers flow on a session, and it has not been told that it is over. -/
def IsLive (x : Supervision) (id : String) : Prop :=
  (∃ s, x.factory.calls.session? id = some s ∧ s.IsLive) ∧ id ∉ x.told

lemma isLive_iff : x.IsLive id ↔
    (x.state? id = some .active ∨ x.state? id = some .suspending) ∧ id ∉ x.told := by
  rw [IsLive, state?]
  rcases x.factory.calls.session? id with _ | s <;> simp [Session.IsLive]

instance (x : Supervision) (id : String) : Decidable (x.IsLive id) := decidable_of_iff' _ isLive_iff

/-- The sessions go on: they end, or their servers suspend them. -/
structure Ages (x x' : Supervision) : Prop where
  told : ∀ id ∈ x.told, id ∈ x'.told
  state : ∀ id, x'.state? id = x.state? id ∨
    x.state? id ≠ none ∧ x'.state? id = some .disconnected ∨
    x.state? id = some .active ∧ x'.state? id = some .suspending

namespace Ages

lemma congr (h : x.Ages y) (hcalls : x'.factory.calls = y.factory.calls)
    (htold : x'.told = y.told) : x.Ages x' := by
  refine ⟨fun id hid => htold ▸ h.told id hid, fun id => ?_⟩
  have hstate : x'.state? id = y.state? id := by rw [state?, hcalls, state?]
  rw [hstate]
  exact h.state id

lemma refl (x : Supervision) : x.Ages x := ⟨fun _ h => h, fun _ => Or.inl rfl⟩

lemma of_eq (hcalls : x'.factory.calls = x.factory.calls) (htold : x'.told = x.told) : x.Ages x' :=
  (refl x).congr hcalls htold

lemma isLive (h : x.Ages x') (hid : x'.IsLive id) : x.IsLive id := by
  rw [isLive_iff] at hid ⊢
  refine ⟨?_, fun htold => hid.2 (h.told id htold)⟩
  rcases h.state id with hstate | ⟨-, hover⟩ | ⟨hactive, -⟩
  · rw [← hstate]
    exact hid.1
  · rw [hover] at hid
    rcases hid.1 with hid | hid <;> cases hid
  · exact Or.inl hactive

lemma known (h : x.Ages x') (hid : x.state? id ≠ none) : x'.state? id ≠ none := by
  rcases h.state id with hstate | ⟨-, hstate⟩ | ⟨-, hstate⟩ <;> rw [hstate]
  · exact hid
  · exact Option.some_ne_none _
  · exact Option.some_ne_none _

lemma ended (h : x.Ages x') (hid : x.state? id = some .disconnected) :
    x'.state? id = some .disconnected := by
  rcases h.state id with hstate | ⟨-, hstate⟩ | ⟨hactive, -⟩
  · exact hstate.trans hid
  · exact hstate
  · rw [hid] at hactive
    cases hactive

lemma onSession (id : String) {f : Session → Session}
    (hf : ∀ s, x.factory.calls.session? id = some s →
      s.KeepsState (f s) ∨ s.state = .active ∧ (f s).state = .suspending) :
    x.Ages (x.onSession id f) := by
  refine ⟨fun _ h => h, fun j => ?_⟩
  have hstate : (x.onSession id f).state? j =
      if j = id then (x.factory.calls.session? j).map fun s => (f s).state else x.state? j := by
    show ((x.factory.calls.onSession id f).session? j).map _ = _
    rw [Calls.session?_onSession]
    split
    · rw [Option.map_map]
      rfl
    · rfl
  rw [hstate]
  split
  · rename_i hj
    subst hj
    rw [state?]
    rcases hs : x.factory.calls.session? j with _ | s
    · exact Or.inl rfl
    · simp only [Option.map_some, Option.some.injEq, ne_eq, reduceCtorEq, not_false_eq_true,
        true_and]
      exact or_assoc.mp (hf s hs)
  · exact Or.inl rfl

lemma closed (id : String) : x.Ages (x.onSession id Session.closed) :=
  onSession id fun s _ => Or.inl (.closed s)

/-- The server of a session suspends only one that is active. -/
lemma suspended (id : String) :
    x.Ages (x.onSession id fun s => (s.perform (.moveTo .suspending)).1) := by
  refine onSession id fun s _ => ?_
  cases hmay : s.state.mayBecome .suspending with
  | true =>
    right
    have hactive : s.state = .active := by
      revert hmay
      cases s.state <;> decide
    exact ⟨hactive, by simp [Session.perform, Session.moveTo, hmay]⟩
  | false => exact Or.inl (Or.inl (by simp [Session.perform, Session.moveTo, hmay]))

lemma tell (x : Supervision) (id : String) : x.Ages (x.tell id) := by
  rw [Supervision.tell]
  split
  · exact refl x
  · rename_i s hs
    split
    · rename_i t hsend
      have hages : x.Ages (x.onSession id fun _ => t) := by
        refine onSession id fun s' hs' => Or.inl ?_
        rw [hs] at hs'
        cases hs'
        exact Session.keepsState_sendControl hsend
      exact ⟨fun j hj => List.mem_append_left _ hj, hages.state⟩
    · exact closed id

/-- Giving up the calls of a session counts them down there. -/
lemma failCalls (x : Supervision) (id reason : String) :
    x.Ages { x with factory := x.factory.failCalls id reason } := by
  refine ⟨fun _ h => h, fun j => Or.inl ?_⟩
  have hview : ∀ y : Calls, (y.session? j).map Session.state = (y.view j).map Session.state := by
    intro y
    rw [Calls.view, Option.map_map]
    rfl
  show ((x.factory.calls.failSession id reason).2.session? j).map _ = _
  rw [hview, state?, hview, Calls.failSession, Calls.clear, Calls.view_clearKeys]

end Ages

/-- Whoever is told that it is over is not live any more. -/
lemma not_isLive_tell (x : Supervision) (id : String) : ¬ (x.tell id).IsLive id := by
  intro hid
  obtain ⟨⟨t, ht, hlive⟩, htold⟩ := hid
  rw [tell] at ht htold
  split at ht
  · rename_i hs
    rw [hs] at ht
    cases ht
  · rename_i s hs
    rw [hs] at htold
    split at ht
    · rename_i hsend
      simp only [hsend] at htold
      exact htold (List.mem_append_right _ (List.mem_singleton_self _))
    · have hclosed := ht.symm.trans (Calls.session?_onSession_self hs Session.closed)
      cases hclosed
      rcases hlive with hstate | hstate <;> rw [s.state_closed] at hstate <;> cases hstate

/-! ## Who holds a session -/

/-- The session in the place of the active one. -/
def slot? (x : Supervision) : Option String := x.factory.active.map Prod.snd

/-- No stop is about to tell a session that it is over. -/
def NoneClosing (x : Supervision) : Prop := ∀ t ∈ x.stops, t.closes? = none

/-- A session that has been made and not told that it is over is with a supervisor, in its place, or
with a stop. -/
def Holds (x : Supervision) (id : String) : Prop :=
  x.slot? = some id ∨ (∃ a ∈ x.supervisors, a.arrives? = some id) ∨
    ∃ t ∈ x.stops, t.closes? = some id

/-- What a supervisor at a stage can rely on.  While it looks for a session no other one is held;
the place may hold none but its own afterwards. -/
def Fits (x : Supervision) : SupervisorStage → Prop
  | .considering .. | .attempting .. => x.slot? = none ∧ x.NoneClosing
  | .arriving _ id => (x.slot? = none ∧ x.NoneClosing) ∧ x.state? id ≠ none
  | .placed _ id | .watching id => (x.slot? = none ∨ x.slot? = some id) ∧ x.state? id ≠ none
  | .losing id => (x.slot? = none ∨ x.slot? = some id) ∧ x.state? id = some .disconnected
  | .checking | .failing .. | .pausing => x.slot? = none
  | .done => True

/-- At most one session is held, and every live one is.  The place of the active session is free
when a supervisor is spawned, and after a stop has begun. -/
structure Sole (x : Supervision) : Prop where
  fits : ∀ stage ∈ x.supervisors, x.Fits stage
  spawning : .spawning ∈ x.starts → x.slot? = none
  stopped : x.factory.running = false → .taking ∈ x.stops ∨ x.slot? = none
  held : ∀ id id', x.Holds id → x.Holds id' → id = id'
  live : ∀ id, x.IsLive id → x.Holds id

lemma noneClosing_of_done (h : ∀ t ∈ x.stops, t = .done) : x.NoneClosing := by
  intro t ht
  rw [h t ht]
  rfl

/-- Later, what a supervisor relies on is still there, if the place has become free at most and no
stop has taken a session from a free place. -/
lemma Fits.ages {stage : SupervisorStage} (h : x.Fits stage) (hages : x.Ages x')
    (hslot : x'.slot? = x.slot? ∨ x'.slot? = none)
    (hclosing : x.slot? = none → x.NoneClosing → x'.NoneClosing) : x'.Fits stage := by
  have hfree : x.slot? = none → x'.slot? = none := fun hnone => by
    rcases hslot with hslot | hslot <;> rw [hslot]
    exact hnone
  have hown : ∀ id, x.slot? = none ∨ x.slot? = some id → x'.slot? = none ∨ x'.slot? = some id := by
    intro id hid
    rcases hslot with hslot | hslot <;> rw [hslot]
    · exact hid
    · exact Or.inl rfl
  cases stage with
  | considering first offset | attempting first offset => exact ⟨hfree h.1, hclosing h.1 h.2⟩
  | arriving i id => exact ⟨⟨hfree h.1.1, hclosing h.1.1 h.1.2⟩, hages.known h.2⟩
  | placed i id => exact ⟨hown id h.1, hages.known h.2⟩
  | watching id => exact ⟨hown id h.1, hages.known h.2⟩
  | losing id => exact ⟨hown id h.1, hages.ended h.2⟩
  | checking | failing _ _ | pausing => exact hfree h
  | done => trivial

namespace Sole

variable (h : x.Sole)

include h

/-- What has to be seen to when sessions pass from hand to hand. -/
lemma of_ages (hages : x.Ages x') (hfits : ∀ stage ∈ x'.supervisors, x'.Fits stage)
    (hspawning : .spawning ∈ x'.starts → x'.slot? = none)
    (hstopped : x'.factory.running = false → .taking ∈ x'.stops ∨ x'.slot? = none)
    (hheld : ∀ id, x'.Holds id → x.Holds id)
    (hlive : ∀ id, x'.IsLive id → x.Holds id → x'.Holds id) : x'.Sole :=
  ⟨hfits, hspawning, hstopped, fun id id' hid hid' => h.held id id' (hheld id hid) (hheld id' hid'),
    fun id hid => hlive id hid (h.live id (hages.isLive hid))⟩

/-! ## Supervisors -/

/-- The one supervisor that is at work goes on. -/
lemma of_supervisor (ho : x.Ordered) {stage stage' : SupervisorStage}
    (ht : x.SupervisorTurn k stage stage' x') (hages : x.Ages x') (hfits : x'.Fits stage')
    (hslot : x'.slot? = x.slot? ∨ x'.slot? = none ∨ x.factory.running = true)
    (hheld : ∀ id, x'.slot? = some id ∨ stage'.arrives? = some id →
      x.slot? = some id ∨ stage.arrives? = some id)
    (hlive : ∀ id, x'.IsLive id → x.slot? = some id ∨ stage.arrives? = some id →
      x'.slot? = some id ∨ stage'.arrives? = some id) : x'.Sole := by
  obtain ⟨hk, hstage, hsupervisors, hstarts, hstops, -, hrunning⟩ := ht
  have hbusy : x.IsBusy k := ⟨stage, hk, hstage⟩
  have hothers : ∀ a ∈ x'.supervisors, a = stage' ∨ a = .done := fun a ha =>
    ho.eq_or_done_of_set hk hstage (hsupervisors ▸ ha)
  refine h.of_ages hages (fun a ha => ?_) (fun hspawning => ?_) (fun hstopped => ?_)
    (fun id hid => ?_) fun id hid hx => ?_
  · rcases hothers a ha with rfl | rfl
    · exact hfits
    · trivial
  · rw [hstarts] at hspawning
    exact absurd hbusy (ho.spawning hspawning k)
  · rw [hrunning] at hstopped
    rw [hstops]
    rcases hslot with hslot | hslot | hslot
    · rw [hslot]
      exact h.stopped hstopped
    · exact Or.inr hslot
    · rw [hstopped] at hslot
      cases hslot
  · have hcases : x.slot? = some id ∨ stage.arrives? = some id → x.Holds id := fun hid =>
      hid.imp_right fun hid => Or.inl ⟨stage, List.mem_of_getElem? hk, hid⟩
    rcases hid with hid | ⟨a, ha, hid⟩ | ⟨t, ht, hid⟩
    · exact hcases (hheld id (Or.inl hid))
    · rcases hothers a ha with rfl | rfl
      · exact hcases (hheld id (Or.inr hid))
      · cases hid
    · exact Or.inr (Or.inr ⟨t, hstops ▸ ht, hid⟩)
  · have hmem : stage' ∈ x'.supervisors := by
      rw [hsupervisors]
      exact mem_set_self hk stage'
    have hcases : x'.slot? = some id ∨ stage'.arrives? = some id → x'.Holds id := fun hid =>
      hid.imp_right fun hid => Or.inl ⟨stage', hmem, hid⟩
    rcases hx with hx | hx | ⟨t, ht, hx⟩
    · exact hcases (hlive id hid (Or.inl hx))
    · obtain ⟨a, ha, hx⟩ := hx
      rcases ho.eq_or_done hk hstage ha with rfl | rfl
      · exact hcases (hlive id hid (Or.inr hx))
      · cases hx
    · exact Or.inr (Or.inr ⟨t, hstops.symm ▸ ht, hx⟩)

/-- A step of the supervisor that hands no session on. -/
lemma of_supervisor_aside (ho : x.Ordered) {stage stage' : SupervisorStage}
    (ht : x.SupervisorTurn k stage stage' x') (hages : x.Ages x') (hslot : x'.slot? = x.slot?)
    (hfits : x'.Fits stage') (harrives : stage'.arrives? = stage.arrives?) : x'.Sole := by
  refine h.of_supervisor ho ht hages hfits (Or.inl hslot) (fun id hid => ?_) fun id _ hid => ?_ <;>
    rw [hslot, harrives] at *
  · exact hid
  · exact hid

lemma consider (ho : x.Ordered) {first offset : Nat}
    (hk : x.supervisors[k]? = some (.considering first offset)) :
    (x.consider probe k first offset).Sole := by
  have hfits := h.fits _ (List.mem_of_getElem? hk)
  simp only [Supervision.consider]
  split
  · exact h.of_supervisor_aside ho (turn_setSupervisor hk (by simp) (by rfl))
      (.of_eq rfl rfl) rfl hfits.1 rfl
  · split <;>
      exact h.of_supervisor_aside ho (turn_setSupervisor hk (by simp) (by rfl))
        (.of_eq rfl rfl) rfl hfits rfl

/-- A supervisor puts its session into the place, which is free, or tells it that it is over. -/
lemma arrive (ho : x.Ordered) {i : Nat} (hk : x.supervisors[k]? = some (.arriving i id)) :
    (x.arrive k i id).Sole := by
  obtain ⟨⟨hfree, -⟩, hknown⟩ := h.fits _ (List.mem_of_getElem? hk)
  rw [Supervision.arrive]
  split
  · rename_i hrunning
    refine h.of_supervisor ho (turn_setSupervisor hk (by simp) (by rfl)) (.of_eq rfl rfl)
      ⟨Or.inr rfl, hknown⟩ (Or.inr (Or.inr hrunning)) (fun j hj => Or.inr ?_)
      fun j _ hj => Or.inl ?_
    · exact hj.resolve_right (by simp [SupervisorStage.arrives?])
    · exact hj.resolve_left fun hj => by rw [hfree] at hj; cases hj
  · have hnot := x.not_isLive_tell id
    have hages := Ages.tell x id
    obtain ⟨calls, told, heq⟩ := x.tell_frame id
    rw [heq] at hnot hages ⊢
    refine h.of_supervisor ho (turn_setSupervisor hk (by simp) (by rfl)) (hages.congr rfl rfl) hfree
      (Or.inl rfl) (fun j hj => Or.inl (hj.resolve_right (by simp [SupervisorStage.arrives?])))
      fun j hlive hj => ?_
    rcases hj with hj | hj
    · exact Or.inl hj
    · cases hj
      exact absurd hlive hnot

/-- A supervisor frees the place of its session, which is over. -/
lemma lose (ho : x.Ordered) (hk : x.supervisors[k]? = some (.losing id)) :
    ({ x with factory := (x.factory.release id).2 }.setSupervisor k
      (.failing id (x.factory.release id).1)).Sole := by
  obtain ⟨hown, hover⟩ := h.fits _ (List.mem_of_getElem? hk)
  obtain ⟨active, heq⟩ := release_frame x.factory id
  have hfree : (x.factory.release id).2.active = none := by
    rcases hactive : x.factory.active with _ | ⟨i, held⟩
    · simp only [Factory.release, hactive]
    · rw [slot?, hactive] at hown
      have hheld : held = id := by simpa using hown
      simp only [Factory.release, hactive, hheld, if_true]
  rw [heq] at hfree ⊢
  have hslot : active = none := hfree
  refine h.of_supervisor ho (turn_setSupervisor hk (by simp) (by rfl)) (.of_eq rfl rfl) ?_
    (Or.inr (Or.inl ?_)) ?_ ?_
  · show active.map Prod.snd = none
    rw [hslot]
    rfl
  · show active.map Prod.snd = none
    rw [hslot]
    rfl
  · rintro j (hj | hj)
    · rw [slot?, show _ = active from rfl, hslot] at hj
      cases hj
    · cases hj
  · rintro j hlive (hj | hj)
    · -- the session in the place was its own, and that is over
      have hsame : j = id := by
        rcases hown with hown | hown <;> rw [hown] at hj <;> cases hj
        rfl
      subst hsame
      have hlive := (Ages.of_eq rfl rfl : x.Ages _).isLive hlive
      rw [isLive_iff, hover] at hlive
      rcases hlive.1 with hlive | hlive <;> cases hlive
    · cases hj

lemma stepSupervisor (ho : x.Ordered) (k : Nat) (first : Bool) :
    (x.stepSupervisor probe k first).Sole := by
  rcases hk : x.supervisors[k]? with _ | stage
  · simp only [Supervision.stepSupervisor, hk]
    exact h
  have hfits := h.fits _ (List.mem_of_getElem? hk)
  cases stage with
  | checking =>
    simp only [Supervision.stepSupervisor, hk]
    split
    · rename_i hrunning
      exact h.of_supervisor_aside ho (turn_setSupervisor hk (by simp) (by rfl)) (.of_eq rfl rfl) rfl
        ⟨hfits, noneClosing_of_done (ho.running hrunning)⟩ rfl
    · exact h.of_supervisor_aside ho (turn_setSupervisor hk (by simp) (by rfl))
        (.of_eq rfl rfl) rfl trivial rfl
  | considering first offset =>
    simp only [Supervision.stepSupervisor, hk]
    exact h.consider ho hk
  | arriving i id =>
    simp only [Supervision.stepSupervisor, hk]
    exact h.arrive ho hk
  | placed i id =>
    simp only [Supervision.stepSupervisor, hk]
    exact h.of_supervisor_aside ho (turn_setSupervisor hk (by simp) (by rfl))
      (.of_eq rfl rfl) rfl hfits rfl
  | watching id =>
    simp only [Supervision.stepSupervisor, hk]
    split
    · rename_i hlost
      refine h.of_supervisor_aside ho (turn_setSupervisor hk (by simp) (by rfl))
        (.of_eq rfl rfl) rfl ⟨hfits.1, ?_⟩ rfl
      have hover : x.isOver id = true := (Bool.and_eq_true_iff.mp hlost).2
      obtain ⟨state, hstate⟩ := Option.ne_none_iff_exists'.mp hfits.2
      obtain ⟨s, hs, rfl⟩ := Option.map_eq_some_iff.mp hstate
      rw [isOver, hs] at hover
      show Option.map Session.state (x.factory.calls.session? id) = _
      rw [hs, Option.map_some, (SessionState.isTerminal_iff _).mp hover]
    · split
      · exact h
      · exact h.of_supervisor_aside ho (turn_setSupervisor hk (by simp) (by rfl))
          (.of_eq rfl rfl) rfl trivial rfl
  | losing id =>
    simp only [Supervision.stepSupervisor, hk]
    exact h.lose ho hk
  | failing id i =>
    simp only [Supervision.stepSupervisor, hk]
    have hages := Ages.failCalls x id "session lost"
    obtain ⟨statuses, heq⟩ := noteGone_frame (x.factory.failCalls id "session lost") i
    rw [heq]
    refine h.of_supervisor_aside ho (turn_setSupervisor hk (by simp) (by rfl))
      (hages.congr rfl rfl) rfl ?_ ?_ <;> split
    · exact hfits
    · trivial
    · rfl
    · rfl
  | pausing =>
    simp only [Supervision.stepSupervisor, hk]
    split
    · exact h.of_supervisor_aside ho (turn_setSupervisor hk (by simp) (by rfl))
        (.of_eq rfl rfl) rfl hfits rfl
    · split
      · exact h
      · exact h.of_supervisor_aside ho (turn_setSupervisor hk (by simp) (by rfl))
          (.of_eq rfl rfl) rfl trivial rfl
  | attempting _ _ | done =>
    simp only [Supervision.stepSupervisor, hk]
    exact h

/-- The session of a successful attempt is the only one that is held. -/
lemma attempted (ho : x.Ordered) {first offset : Nat}
    (hk : x.supervisors[k]? = some (.attempting first offset)) (outcome : Except Failure Session) :
    (x.attempted k first offset outcome).Sole := by
  have hfits := h.fits _ (List.mem_of_getElem? hk)
  cases outcome with
  | error e =>
    exact h.of_supervisor_aside ho (turn_setSupervisor hk (by simp) (by rfl))
      (.of_eq rfl rfl) rfl hfits rfl
  | ok s =>
    obtain ⟨hfree, hclosing⟩ := hfits
    have hsame : ∀ id, x.Holds id → False := by
      rintro id (hid | ⟨a, ha, hid⟩ | ⟨t, ht, hid⟩)
      · rw [hfree] at hid
        cases hid
      · rcases ho.eq_or_done hk (by simp) ha with rfl | rfl <;> cases hid
      · rw [hclosing t ht] at hid
        cases hid
    have hothers : ∀ a ∈ (x.attempted k first offset (.ok s)).supervisors,
        a = .arriving (x.factory.candidateAt first offset) s.id ∨ a = .done :=
      fun a ha => ho.eq_or_done_of_set hk (by simp) ha
    have hheld : ∀ id, (x.attempted k first offset (.ok s)).Holds id → id = s.id := by
      rintro id (hid | ⟨a, ha, hid⟩ | ⟨t, ht, hid⟩)
      · exact (hsame id (Or.inl hid)).elim
      · rcases hothers a ha with rfl | rfl <;> cases hid
        rfl
      · exact (hsame id (Or.inr (Or.inr ⟨t, ht, hid⟩))).elim
    refine ⟨fun a ha => ?_, fun hspawning => ?_, fun _ => Or.inr hfree, fun id id' hid hid' => ?_,
      fun id hid => ?_⟩
    · rcases hothers a ha with rfl | rfl
      · refine ⟨⟨hfree, hclosing⟩, ?_⟩
        show ((x.factory.calls.sessions.add s).get? s.id).map Session.state ≠ none
        rw [Sessions.add, Named.get?_put_self]
        exact Option.some_ne_none _
      · trivial
    · exact absurd ⟨_, hk, by simp⟩ (ho.spawning hspawning k)
    · rw [hheld id hid, hheld id' hid']
    · by_cases hs : id = s.id
      · rw [hs]
        exact Or.inr (Or.inl ⟨_, mem_set_self hk _, rfl⟩)
      · -- no session was live before
        refine (hsame id (h.live id ⟨?_, hid.2⟩)).elim
        obtain ⟨⟨u, hu, hlive⟩, -⟩ := hid
        refine ⟨u, ?_, hlive⟩
        rw [← hu]
        exact (Named.get?_put_of_ne hs _ _).symm

/-! ## Stops and starts -/

/-- A stop goes on, which may take the session out of its place. -/
lemma of_stop {t t' : StopStage} (ht : x.StopTurn k t t' x') (hages : x.Ages x')
    (hslot : x'.slot? = x.slot? ∧ t ≠ .taking ∨ x'.slot? = none)
    (hfree : x.slot? = none → t'.closes? = none)
    (hheld : ∀ id, x'.slot? = some id ∨ t'.closes? = some id →
      x.slot? = some id ∨ t.closes? = some id)
    (hlive : ∀ id, x'.IsLive id → x.slot? = some id ∨ t.closes? = some id →
      x'.slot? = some id ∨ t'.closes? = some id) : x'.Sole := by
  obtain ⟨hk, -, hstops, hsupervisors, hstarts, hrunning⟩ := ht
  refine h.of_ages hages (fun a ha => ?_) (fun hspawning => ?_) (fun hstopped => ?_)
    (fun id hid => ?_) fun id hid hx => ?_
  · rw [hsupervisors] at ha
    refine (h.fits a ha).ages hages (hslot.imp_left And.left) fun hnone hclosing u hu => ?_
    rw [hstops] at hu
    rcases List.mem_or_eq_of_mem_set hu with hu | rfl
    · exact hclosing u hu
    · exact hfree hnone
  · rw [hstarts] at hspawning
    rcases hslot with ⟨hslot, -⟩ | hslot <;> rw [hslot]
    exact h.spawning hspawning
  · rw [hrunning] at hstopped
    rcases hslot with ⟨hslot, htaking⟩ | hslot <;> rw [hslot]
    · rw [hstops]
      exact (h.stopped hstopped).imp_left fun ht => mem_set_of_ne hk ht (Ne.symm htaking) t'
    · exact Or.inr rfl
  · have hcases : x.slot? = some id ∨ t.closes? = some id → x.Holds id := fun hid =>
      hid.imp_right fun hid => Or.inr ⟨t, List.mem_of_getElem? hk, hid⟩
    rcases hid with hid | ⟨a, ha, hid⟩ | ⟨u, hu, hid⟩
    · exact hcases (hheld id (Or.inl hid))
    · exact Or.inr (Or.inl ⟨a, hsupervisors ▸ ha, hid⟩)
    · rw [hstops] at hu
      rcases List.mem_or_eq_of_mem_set hu with hu | rfl
      · exact Or.inr (Or.inr ⟨u, hu, hid⟩)
      · exact hcases (hheld id (Or.inr hid))
  · have hcases : x'.slot? = some id ∨ t'.closes? = some id → x'.Holds id := fun hid =>
      hid.imp_right fun hid => Or.inr ⟨t', hstops ▸ mem_set_self hk t', hid⟩
    rcases hx with hx | ⟨a, ha, hx⟩ | ⟨u, hu, hx⟩
    · exact hcases (hlive id hid (Or.inl hx))
    · exact Or.inr (Or.inl ⟨a, hsupervisors.symm ▸ ha, hx⟩)
    · by_cases hut : u = t
      · rw [hut] at hx
        exact hcases (hlive id hid (Or.inr hx))
      · exact Or.inr (Or.inr ⟨u, hstops ▸ mem_set_of_ne hk hu hut t', hx⟩)

/-- A step of a stop that leaves the place as it is and has no session to tell any more. -/
lemma of_stop_aside {t t' : StopStage} (ht : x.StopTurn k t t' x') (hages : x.Ages x')
    (hslot : x'.slot? = x.slot?) (htaking : t ≠ .taking) (hcloses : t'.closes? = none)
    (hlive : ∀ id, t.closes? = some id → ¬ x'.IsLive id) : x'.Sole := by
  refine h.of_stop ht hages (Or.inl ⟨hslot, htaking⟩) (fun _ => hcloses) (fun id hid => ?_)
    fun id hid hx => ?_
  · rw [hslot, hcloses] at hid
    exact Or.inl (hid.resolve_right (by simp))
  · rw [hslot]
    exact Or.inl (hx.resolve_right fun hx => hlive id hx hid)

/-- A stop that takes the session out of its place is going to tell it. -/
lemma of_stop_taking {t t' : StopStage} (ht : x.StopTurn k t t' x') (hages : x.Ages x')
    (hslot : x'.slot? = none) (hnone : t.closes? = none) (hcloses : t'.closes? = x.slot?) :
    x'.Sole := by
  refine h.of_stop ht hages (Or.inr hslot) hcloses.trans (fun id hid => ?_) fun id _ hx => ?_
  · rw [hslot, hcloses] at hid
    exact Or.inl (hid.resolve_left (by simp))
  · rw [hnone] at hx
    rw [hcloses]
    exact Or.inr (hx.resolve_right (by simp))

lemma stepStop (k : Nat) (timeUp : Bool) : (x.stepStop k timeUp).Sole := by
  rcases hk : x.stops[k]? with _ | t
  · simp only [Supervision.stepStop, hk]
    exact h
  rcases t with _ | ⟨i, id, late, n⟩ | ⟨i, id, late, n⟩ | ⟨i, id, late, n⟩ | n | _ | _ <;>
    simp only [Supervision.stepStop, hk]
  case taking | takingLate =>
    rcases hactive : x.factory.active with _ | ⟨i, id⟩ <;>
      simp only [takeActive, hactive] <;>
      exact h.of_stop_taking (turn_setStop hk (by simp) (by rfl)) (.of_eq rfl rfl) rfl rfl
        (by rw [slot?, hactive]; rfl)
  case closing =>
    have hnot := x.not_isLive_tell id
    have hages := Ages.tell x id
    obtain ⟨calls, told, heq⟩ := x.tell_frame id
    rw [heq] at hnot hages ⊢
    refine h.of_stop_aside (turn_setStop hk (by simp) (by rfl)) (hages.congr rfl rfl) rfl (by simp)
      rfl fun j hj => ?_
    cases hj
    exact hnot
  case lingering =>
    split
    · exact h.of_stop_aside (turn_setStop hk (by simp) (by rfl)) (.of_eq rfl rfl) rfl (by simp) rfl
        (by simp [StopStage.closes?])
    · split
      · exact h.of_stop_aside (turn_setStop hk (by simp) (by rfl))
          ((Ages.closed id).congr rfl rfl) rfl (by simp) rfl (by simp [StopStage.closes?])
      · exact h
  case failing =>
    have hages := Ages.failCalls x id "connection factory stopped"
    refine h.of_stop_aside (turn_setStop hk (by simp) (by rfl)) (hages.congr rfl rfl) rfl (by simp)
      ?_ (by simp [StopStage.closes?])
    cases late <;> rfl
  case joining =>
    split
    · exact h.of_stop_aside (turn_setStop hk (by simp) (by rfl)) (.of_eq rfl rfl) rfl (by simp) rfl
        (by simp [StopStage.closes?])
    · exact h
  case done => exact h

lemma stop : x.stop.Sole := by
  refine h.of_ages (.of_eq rfl rfl) (fun a ha => ?_) h.spawning
    (fun _ => Or.inl (List.mem_append_right _ (List.mem_singleton_self _))) (fun id hid => ?_)
    fun id _ hx => ?_
  · refine (h.fits a ha).ages (.of_eq rfl rfl) (Or.inl rfl) fun _ hclosing t ht => ?_
    rcases List.mem_append.mp ht with ht | ht
    · exact hclosing t ht
    · rw [List.mem_singleton.mp ht]
      rfl
  · rcases hid with hid | hid | ⟨t, ht, hid⟩
    · exact Or.inl hid
    · exact Or.inr (Or.inl hid)
    · rcases List.mem_append.mp ht with ht | ht
      · exact Or.inr (Or.inr ⟨t, ht, hid⟩)
      · rw [List.mem_singleton.mp ht] at hid
        cases hid
  · rcases hx with hx | hx | ⟨t, ht, hx⟩
    · exact Or.inl hx
    · exact Or.inr (Or.inl hx)
    · exact Or.inr (Or.inr ⟨t, List.mem_append_left _ ht, hx⟩)

lemma start (hstops : ∀ t ∈ x.stops, t = .done) : x.start.Sole := by
  refine h.of_ages (.of_eq rfl rfl)
    (fun a ha => (h.fits a ha).ages (.of_eq rfl rfl) (Or.inl rfl) fun _ hclosing => hclosing)
    (fun hspawning => ?_) (fun hr => by cases hr) (fun _ hid => hid) fun _ _ hx => hx
  rcases List.mem_append.mp hspawning with hspawning | hlast
  · exact h.spawning hspawning
  · -- a supervisor is to be spawned: the client was stopped, and no stop is left
    have hstopped : x.factory.running = false := by
      cases hr : x.factory.running with
      | false => rfl
      | true =>
        rw [hr, if_pos rfl, List.mem_singleton] at hlast
        cases hlast
    exact (h.stopped hstopped).resolve_left fun htaking => by cases hstops _ htaking

lemma stepStart (k : Nat) : (x.stepStart k).Sole := by
  rcases hk : x.starts[k]? with _ | (_ | n | _) <;> simp only [Supervision.stepStart, hk]
  · exact h
  · have hfree := h.spawning (List.mem_of_getElem? hk)
    refine h.of_ages (.of_eq rfl rfl) (fun a ha => ?_) (fun _ => hfree) h.stopped (fun id hid => ?_)
      fun id _ hx => ?_
    · rcases List.mem_append.mp ha with ha | ha
      · exact (h.fits a ha).ages (.of_eq rfl rfl) (Or.inl rfl) fun _ hclosing => hclosing
      · rw [List.mem_singleton.mp ha]
        exact hfree
    · rcases hid with hid | ⟨a, ha, hid⟩ | hid
      · exact Or.inl hid
      · rcases List.mem_append.mp ha with ha | ha
        · exact Or.inr (Or.inl ⟨a, ha, hid⟩)
        · rw [List.mem_singleton.mp ha] at hid
          cases hid
      · exact Or.inr (Or.inr hid)
    · rcases hx with hx | ⟨a, ha, hx⟩ | hx
      · exact Or.inl hx
      · exact Or.inr (Or.inl ⟨a, List.mem_append_left _ ha, hx⟩)
      · exact Or.inr (Or.inr hx)
  · refine h.of_ages (.of_eq rfl rfl)
      (fun a ha => (h.fits a ha).ages (.of_eq rfl rfl) (Or.inl rfl) fun _ hclosing => hclosing)
      (fun hspawning => ?_) h.stopped (fun _ hid => hid) fun _ _ hx => hx
    exact h.spawning ((List.mem_or_eq_of_mem_set hspawning).resolve_right (by simp))
  · exact h

/-- Whatever happens to the sessions, they stay with whom they are. -/
lemma onSession (hages : x.Ages (x.onSession id f)) : (x.onSession id f).Sole :=
  h.of_ages hages (fun a ha => (h.fits a ha).ages hages (Or.inl rfl) fun _ hclosing => hclosing)
    h.spawning h.stopped (fun _ hid => hid) fun _ _ hx => hx

/-- **Every move that is allowed keeps at most one session in hands.** -/
lemma next (ho : x.Ordered) (hm : x.Allows m) : (next probe x m).Sole := by
  cases m with
  | start => exact h.start hm
  | stepStart k => exact h.stepStart k
  | stop => exact h.stop
  | stepStop k timeUp => exact h.stepStop k timeUp
  | stepSupervisor k first => exact h.stepSupervisor ho k first
  | attempted k outcome =>
    simp only [Supervision.next]
    split
    · exact h.attempted ho ‹_› outcome
    · exact h
  | lose id => exact h.onSession (.closed id)
  | suspend id => exact h.onSession (.suspended id)

end Sole

/-! ## The main theorem -/

/-- A client that has not been started yet. -/
structure IsNew (x : Supervision) : Prop where
  supervisors : x.supervisors = []
  starts : x.starts = []
  stops : x.stops = []
  running : x.factory.running = false
  active : x.factory.active = none
  sessions : x.factory.calls.sessions = []

lemma isNew_create {settings : ClientSettings} {registry : Registry} {f : Factory}
    (hf : Factory.create settings registry = .ok f) : IsNew { factory := f } := by
  obtain ⟨-, -, hf⟩ := bind_eq_ok.mp hf
  obtain ⟨range, -, hf⟩ := bind_eq_ok.mp hf
  cases hf
  exact ⟨rfl, rfl, rfl, rfl, rfl, rfl⟩

namespace IsNew

variable (hx : x.IsNew)

include hx

lemma ordered : x.Ordered := ordered_of_nil hx.supervisors hx.starts hx.stops

lemma sole : x.Sole := by
  have hfree : x.slot? = none := by rw [slot?, hx.active, Option.map_none]
  have hholds : ∀ id, ¬ x.Holds id := by
    rintro id (hid | ⟨a, ha, -⟩ | ⟨t, ht, -⟩)
    · rw [hfree] at hid
      cases hid
    · rw [hx.supervisors] at ha
      cases ha
    · rw [hx.stops] at ht
      cases ht
  refine ⟨?_, fun _ => hfree, fun _ => Or.inr hfree, fun id _ hid => absurd hid (hholds id), ?_⟩
  · rw [hx.supervisors]
    exact nofun
  · rintro id ⟨⟨s, hs, -⟩, -⟩
    rw [Calls.session?, hx.sessions] at hs
    cases hs

end IsNew

/-- **One supervisor and one session, all the time.** -/
lemma sole_run (ho : x.Ordered) (h : x.Sole) {ms : List Move} (hms : x.Orderly probe ms) :
    (x.run probe ms).Ordered ∧ (x.run probe ms).Sole := by
  induction ms generalizing x with
  | nil => exact ⟨ho, h⟩
  | cons m ms ih => exact ih (ho.next hms.1) (h.next ho hms.1) hms.2

lemma active_tell (x : Supervision) (id : String) :
    (x.tell id).factory.active = x.factory.active := by
  obtain ⟨calls, told, heq⟩ := x.tell_frame id
  rw [heq]

/-- The place of the active session stays as it is or becomes free, unless a session arrives. -/
lemma active_stepSupervisor_cases (x : Supervision) (k : Nat) (first : Bool) :
    (x.stepSupervisor probe k first).factory.active = x.factory.active ∨
      (x.stepSupervisor probe k first).factory.active = none ∨
      ∃ i id, x.supervisors[k]? = some (.arriving i id) := by
  rcases hk : x.supervisors[k]? with _ | stage
  · exact Or.inl (by simp only [stepSupervisor, hk])
  cases stage with
  | arriving i id => exact Or.inr (Or.inr ⟨i, id, rfl⟩)
  | losing id =>
    simp only [stepSupervisor, hk, Factory.release]
    split
    · split
      · exact Or.inr (Or.inl rfl)
      · exact Or.inl rfl
    · exact Or.inl rfl
  | failing id i =>
    left
    simp only [stepSupervisor, hk]
    cases i <;> rfl
  | _ =>
    left
    simp only [stepSupervisor, hk, consider]
    repeat' split
    all_goals rfl

lemma active_stepStop_cases (x : Supervision) (k : Nat) (timeUp : Bool) :
    (x.stepStop k timeUp).factory.active = x.factory.active ∨
      (x.stepStop k timeUp).factory.active = none := by
  rcases hk : x.stops[k]? with _ | t
  · exact Or.inl (by simp only [stepStop, hk])
  cases t with
  | taking | takingLate =>
    right
    simp only [stepStop, hk, takeActive]
    rfl
  | closing i id late n =>
    left
    simp only [stepStop, hk]
    exact active_tell x id
  | _ =>
    left
    simp only [stepStop, hk]
    repeat' split
    all_goals rfl

/-- Only a supervisor that has made a session puts one into the place of the active session. -/
lemma active_next_cases (x : Supervision) (m : Move) :
    (next probe x m).factory.active = x.factory.active ∨ (next probe x m).factory.active = none ∨
      ∃ (k i : Nat) (id : String), x.supervisors[k]? = some (.arriving i id) := by
  cases m with
  | stepStart k =>
    left
    simp only [next, stepStart]
    split <;> rfl
  | stepStop k timeUp => exact (x.active_stepStop_cases k timeUp).imp_right Or.inl
  | stepSupervisor k first =>
    exact (x.active_stepSupervisor_cases k first).imp_right fun h => h.imp_right fun h => ⟨k, h⟩
  | attempted k outcome =>
    left
    simp only [next]
    split
    · cases outcome <;> rfl
    · rfl
  | start | stop | lose _ | suspend _ => exact Or.inl rfl

/-- **At most one live session.**  Where no start is called for while a stop is under way, and no
stop while a start is, a client has at any time at most one session that is live and has not been
told to disconnect; and a session that is in the place of the active one is not replaced there by
another. -/
theorem one_live_session (hx : x.IsNew) {ms : List Move} (hms : x.Orderly probe ms) :
    (∀ id id', (x.run probe ms).IsLive id → (x.run probe ms).IsLive id' → id = id') ∧
      ∀ m a b, (x.run probe ms).factory.active = some a →
        (next probe (x.run probe ms) m).factory.active = some b → b = a := by
  obtain ⟨-, h⟩ := sole_run hx.ordered hx.sole hms
  refine ⟨fun id id' hid hid' => h.held id id' (h.live id hid) (h.live id' hid'),
    fun m a b ha hb => ?_⟩
  rcases active_next_cases (x.run probe ms) m with heq | heq | ⟨k, i, id, hk⟩
  · rw [heq, ha] at hb
    exact (Option.some.inj hb).symm
  · rw [heq] at hb
    cases hb
  · -- while a session arrives, the place is free
    have hfree := (h.fits _ (List.mem_of_getElem? hk)).1.1
    rw [slot?, ha] at hfree
    cases hfree

/-- The client of the settings that are there by default. -/
def standard : Supervision :=
  { factory :=
      { settings := {}
        range := default
        candidates := ["127.0.0.1:7300"]
        calls := { correlator := { registry := {}, callTimeout := .ofMillis 30000 } }
        statuses := [.disconnected] } }

lemma isNew_standard : standard.IsNew :=
  isNew_create (show Factory.create {} {} = .ok standard.factory by rfl)

/-- A session as a successful attempt gives it. -/
def opened (id : String) : Session :=
  { id, role := .client, remote := .v4 127 0 0 1 7300, version := some .newest, state := .active }

/-- The moves by which a supervisor that is about to look for a session makes one. -/
def connect (k : Nat) (id : String) : List Move :=
  [.stepSupervisor k true, .stepSupervisor k true, .attempted k (.ok (opened id))]

/-- The moves by which a supervisor puts its session into the place and goes on to watch it. -/
def settle (k : Nat) : List Move := [.stepSupervisor k true, .stepSupervisor k true]

/-- A start, up to the moment at which its supervisor watches a session. -/
def begin (k : Nat) (id : String) : List Move :=
  [.start, .stepStart k, .stepStart k] ++ connect k id ++ settle k

/-- A client is stopped and started again. -/
def restart : List Move :=
  begin 0 "s" ++
    [.stop, .stepStop 0 false, .stepStop 0 false, .lose "s", .stepStop 0 false, .stepStop 0 false,
      .stepSupervisor 0 true, .stepSupervisor 0 true, .stepSupervisor 0 true, .stepStop 0 false,
      .stepStop 0 false] ++ begin 1 "t"

theorem one_live_session_restart :
    standard.Orderly (fun _ => true) restart ∧
      (standard.run (fun _ => true) restart).factory.active = some (0, "t") ∧
      (∀ id id', (standard.run (fun _ => true) restart).IsLive id →
        (standard.run (fun _ => true) restart).IsLive id' → id = id') ∧
      ∀ m a b, (standard.run (fun _ => true) restart).factory.active = some a →
        (next (fun _ => true) (standard.run (fun _ => true) restart) m).factory.active = some b →
        b = a := by
  have hms : standard.Orderly (fun _ => true) restart := by decide +kernel
  exact ⟨hms, by decide +kernel, one_live_session isNew_standard hms⟩

/-- The order is needed.  A client is started again while a stop waits for the end of its session.
The first supervisor, which sees the loss of that session later than the start, takes the client for
one that runs, makes a session as well, and puts it into the place of the one that is there. -/
theorem two_live_sessions_of_overlap :
    let x := standard.run (fun _ => true) <|
      begin 0 "s" ++ [.stop, .stepStop 0 false, .stepStop 0 false, .lose "s"] ++ begin 1 "t" ++
        [.stepSupervisor 0 true, .stepSupervisor 0 true, .stepSupervisor 0 true,
          .stepSupervisor 0 true] ++ connect 0 "u"
    let x' := next (fun _ => true) x (.stepSupervisor 0 true)
    x.factory.active = some (0, "t") ∧ x'.factory.active = some (0, "u") ∧
      x'.state? "t" = some .active ∧ x'.IsLive "t" ∧ x'.IsLive "u" := by
  decide +kernel

end Supervision

end RemoteCall
