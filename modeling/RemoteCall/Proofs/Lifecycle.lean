/-
# The life of a session

Whatever tasks call a session, and in whatever order they go on, its state only moves forward, it is
ended once, its version is settled once, and a call that is refused changes nothing.  All of this is
read off from what one step of a task can do, which `SessionTask.Step` says once.
-/
import Mathlib.Data.List.Chain
import Mathlib.Tactic.SplitIfs
import RemoteCall.Proofs.Session
import RemoteCall.Session.Tasks

namespace RemoteCall

/-- The call has been refused, or has found that another one was faster. -/
def SessionReport.isFailure : SessionReport → Bool
  | .forced changed => !changed
  | .refused _ => true
  | _ => false

/-- A session goes forward from one state to another. -/
structure SessionState.Precedes (a b : SessionState) : Prop where
  rank : a.rank < b.rank
  suspending : b = .suspending → a = .active
  active : b = .active → a = .negotiating

lemma SessionState.precedes_of_mayBecome {a b : SessionState} (h : a.mayBecome b = true) :
    a.Precedes b := by
  refine ⟨rank_lt_of_mayBecome h, ?_, ?_⟩
  · rintro rfl
    revert h
    cases a <;> decide
  · rintro rfl
    revert h
    cases a <;> decide

lemma SessionState.Precedes.disconnected {a : SessionState} (h : a ≠ .disconnected) :
    a.Precedes .disconnected := by
  refine precedes_of_mayBecome ?_
  revert h
  cases a <;> decide

/-! ## What a step of a task does -/

namespace SessionTask

/-- Only calls that send a frame go through more than one step. -/
def Fits (t : SessionTask) : Prop :=
  ∀ f, t.stage = .stamped f ∨ t.stage = .passed f →
    (∃ g, t.call = .sendFrame g) ∨ ∃ type, t.call = .sendControl type

/-- What a step of a task makes of the task and of the session. -/
inductive Step (t : SessionTask) (s : Session) : SessionTask → Session → Prop
  /-- The call has returned before. -/
  | rests (report : SessionReport) (h : t.stage = .returned report) : Step t s t s
  /-- The call goes on, or is refused; a frame is only let pass if the session is not over. -/
  | looks (stage : CallStage) (h : ∀ report, t.stage ≠ .returned report)
      (hreport : ∀ report, stage = .returned report → report.isFailure = true)
      (hpassed : ∀ f, stage = .passed f → s.state ≠ .disconnected) (hfits : Fits { t with stage }) :
      Step t s { t with stage } s
  /-- The session is moved to a state. -/
  | moves (next : SessionState) (hcall : t.call = .moveTo next) (h : t.stage = .made)
      (hmay : s.state.mayBecome next = true) :
      Step t s { t with stage := .returned (.moved s.state) } { s with state := next }
  /-- The session is ended. -/
  | ends (hcall : t.call = .forceDisconnect) (h : t.stage = .made)
      (hopen : s.state ≠ .disconnected) :
      Step t s { t with stage := .returned (.forced true) } { s with state := .disconnected }
  /-- The version is settled. -/
  | settles (v : ProtocolVersion) (hcall : t.call = .setVersion v) (h : t.stage = .made)
      (hnone : s.version = none) :
      Step t s { t with stage := .returned .done } { s with version := some v }
  /-- A frame is put into the queue. -/
  | pushes (f : Frame) (h : t.stage = .passed f) (hcall : ∀ v, t.call ≠ .setVersion v) :
      Step t s { t with stage := .returned .done } { s with queue := s.queue ++ [f] }

variable {t t' : SessionTask} {s s' : Session}

/-- A call is refused. -/
lemma Step.refuses (h : ∀ report, t.stage ≠ .returned report) {report : SessionReport}
    (hreport : report.isFailure = true) : Step t s { t with stage := .returned report } s := by
  refine .looks _ h (fun _ hr => ?_) (fun f hf => by cases hf) fun f hf => by simp at hf
  cases hr
  exact hreport

lemma step_look (h : ∀ report, t.stage ≠ .returned report)
    (hcall : (∃ g, t.call = .sendFrame g) ∨ ∃ type, t.call = .sendControl type) (s : Session)
    (f : Frame) : Step t s { t with stage := look s f } s := by
  rcases hpass : s.letPass with e | _ <;> simp only [look, hpass]
  · exact .refuses h rfl
  · exact .looks _ h (fun report hr => by cases hr) (fun _ _ => Session.letPass_eq_ok.mp hpass)
      fun _ _ => hcall

/-- A call that is one step is carried out by the first step of its task. -/
lemma step_perform (h : t.stage = .made)
    (hcall : ∀ f, t.call ≠ .sendFrame f)
    (hcontrol : ∀ type, t.call = .sendControl type → s.version = none) :
    t.step s = ({ t with stage := .returned (s.perform t.call).2 }, (s.perform t.call).1) := by
  rcases hc : t.call with next | _ | v | f | type
  case sendFrame => exact absurd hc (hcall f)
  case sendControl => simp only [step, h, hc, hcontrol type hc]
  all_goals simp only [step, h, hc]

/-- **A step of a task** does nothing else than `Step` says. -/
lemma step_step (ht : t.Fits) (s : Session) : Step t s (t.step s).1 (t.step s).2 := by
  rcases h : t.stage with _ | f | f | report
  · have hmade : ∀ report, t.stage ≠ .returned report := by simp [h]
    rcases hc : t.call with next | _ | v | f | type
    · rw [step_perform h (by simp [hc]) (by simp [hc])]
      by_cases hmay : s.state.mayBecome next = true
      · simpa [hc, Session.perform, Session.moveTo, hmay] using Step.moves next hc h hmay
      · simpa [hc, Session.perform, Session.moveTo, hmay] using Step.refuses hmade rfl
    · rw [step_perform h (by simp [hc]) (by simp [hc])]
      by_cases hover : s.state.isTerminal = true
      · simpa [hc, Session.perform, Session.forceDisconnect, hover] using Step.refuses hmade rfl
      · have hopen : s.state ≠ .disconnected := by rwa [ne_eq, ← SessionState.isTerminal_iff]
        simpa [hc, Session.perform, Session.forceDisconnect, hover] using Step.ends hc h hopen
    · rw [step_perform h (by simp [hc]) (by simp [hc])]
      rcases hv : s.version with _ | w
      · simpa [hc, Session.perform, Session.setVersion, Session.settle, hv] using
          Step.settles v hc h hv
      · simpa [hc, Session.perform, Session.setVersion, Session.settle, hv] using
          Step.refuses hmade rfl
    · have hstep : t.step s = ({ t with stage := look s f }, s) := by simp only [step, h, hc]
      rw [hstep]
      exact step_look hmade (Or.inl ⟨f, hc⟩) s f
    · rcases hv : s.version with _ | v
      · rw [step_perform h (by simp [hc]) fun _ _ => hv]
        simpa [hc, Session.perform, Session.sendControl, Session.settle, hv] using
          Step.refuses hmade rfl
      · have hstep : t.step s = ({ t with stage := .stamped (.control v type) }, s) := by
          simp only [step, h, hc, hv]
        rw [hstep]
        exact .looks _ hmade (fun report hr => by cases hr) (fun f hf => by cases hf)
          fun _ _ => Or.inr ⟨type, hc⟩
  · have hstep : t.step s = ({ t with stage := look s f }, s) := by simp only [step, h]
    rw [hstep]
    exact step_look (by simp [h]) (ht f (Or.inl h)) s f
  · rcases hpush : s.push f with e | u <;> simp only [step, h, hpush, Session.settle]
    · exact .refuses (by simp [h]) rfl
    · obtain ⟨-, rfl⟩ := Session.push_eq_ok.mp hpush
      refine .pushes f h fun v hv => ?_
      rcases ht f (Or.inr h) with ⟨g, hg⟩ | ⟨type, htype⟩
      · cases hv.symm.trans hg
      · cases hv.symm.trans htype
  · simp only [step, h]
    exact .rests report h

lemma Step.fits (ht : t.Fits) (h : Step t s t' s') : t'.Fits := by
  cases h with
  | rests => exact ht
  | looks _ _ _ _ hfits => exact hfits
  | moves | ends | settles | pushes => simp [Fits]

/-- A call on a session that is over puts nothing into the queue, unless it has been let pass
before. -/
lemma Step.of_disconnected (h : Step t s t' s') (hover : s.state = .disconnected)
    (hpassed : ∀ f, t.stage ≠ .passed f) :
    s'.queue = s.queue ∧ ∀ f, t'.stage ≠ .passed f := by
  cases h with
  | rests => exact ⟨rfl, hpassed⟩
  | looks _ _ _ hopen => exact ⟨rfl, fun f hf => hopen f hf hover⟩
  | moves | ends | settles => exact ⟨rfl, fun f hf => by cases hf⟩
  | pushes f h => exact absurd h (hpassed f)

/-- A step that changes the session makes its call return a success. -/
lemma Step.session_eq_or (h : Step t s t' s') :
    s' = s ∨ ∃ report, t'.stage = .returned report ∧ report.isFailure = false := by
  cases h with
  | rests | looks => exact Or.inl rfl
  | moves | ends | settles | pushes => exact Or.inr ⟨_, rfl, rfl⟩

/-! ### Lists of tasks -/

lemma fits_set {l : List SessionTask} {i : Nat} (hl : ∀ u ∈ l, u.Fits) (ht : l[i]? = some t)
    (h : Step t s t' s') : ∀ u ∈ l.set i t', u.Fits := by
  intro u hu
  rcases List.mem_or_eq_of_mem_set hu with hu | rfl
  · exact hl u hu
  · exact h.fits (hl t (List.mem_of_getElem? ht))

lemma fits_concat {l : List SessionTask} (hl : ∀ u ∈ l, u.Fits) (call : SessionCall) :
    ∀ u ∈ l ++ [SessionTask.mk call .made], u.Fits := by
  intro u hu
  rcases List.mem_append.mp hu with hu | hu
  · exact hl u hu
  · cases List.mem_singleton.mp hu
    simp [Fits]

/-! ### What calls come to -/

/-- **A call that no other task comes between** is carried out as if it were one step. -/
lemma steps_alone (call : SessionCall) (s : Session) :
    steps 3 { call } s =
      ({ call, stage := .returned (s.perform call).2 }, (s.perform call).1) := by
  cases call with
  | moveTo | forceDisconnect | setVersion =>
    simp only [steps, step]
  | sendFrame f =>
    rcases hpass : s.letPass with e | _ <;>
      simp [steps, step, look, Session.perform, Session.sendFrame, hpass, bind, Except.bind,
        Session.settle]
  | sendControl type =>
    rcases hv : s.version with _ | v
    · simp only [steps, step, hv]
    · rcases hpass : s.letPass with e | _ <;>
        simp [steps, step, look, Session.perform, Session.sendControl, Session.sendFrame, hv, hpass,
          bind, Except.bind, Session.settle]

/-- The call has ended the session. -/
def hasEnded (t : SessionTask) : Bool :=
  match t.call, t.stage with
  | .moveTo .disconnected, .returned (.moved _) => true
  | .forceDisconnect, .returned (.forced true) => true
  | _, _ => false

/-- The call has settled the version. -/
def hasSettled (t : SessionTask) : Bool :=
  match t.call, t.stage with
  | .setVersion _, .returned .done => true
  | _, _ => false

/-- A call that has not returned, or was refused, has done neither. -/
lemma hasEnded_of_isFailure {t : SessionTask}
    (h : ∀ report, t.stage = .returned report → report.isFailure = true) :
    t.hasEnded = false ∧ t.hasSettled = false := by
  constructor
  · rw [hasEnded]
    split
    · next hstage => cases h _ hstage
    · next hstage => cases h _ hstage
    · rfl
  · rw [hasSettled]
    split
    · next hstage => cases h _ hstage
    · rfl

end SessionTask

namespace SharedSession

variable {x y : SharedSession} {m : Move} {before after moves : List Move} {i : Nat}
  {t : SessionTask} {s : Session}

/-! ## Runs -/

lemma run_append (x : SharedSession) (before after : List Move) :
    x.run (before ++ after) = (x.run before).run after := List.foldl_append

lemma next_goOn (ht : x.tasks[i]? = some t) :
    x.next (.goOn i) = { session := (t.step x.session).2
                         tasks := x.tasks.set i (t.step x.session).1 } := by
  simp only [next, ht]

lemma next_goOn_of_none (hi : x.tasks[i]? = none) : x.next (.goOn i) = x := by
  simp only [next, hi]

/-- What happens to a session in one move: a task takes a step, a call is made, or the queue is
read. -/
lemma next_cases (hx : ∀ t ∈ x.tasks, t.Fits) (m : Move) :
    (∃ i t t', m = .goOn i ∧ x.tasks[i]? = some t ∧
      SessionTask.Step t x.session t' (x.next m).session ∧ (x.next m).tasks = x.tasks.set i t') ∨
    ((x.next m).session.state = x.session.state ∧
      (x.next m).session.version = x.session.version ∧
      ((x.next m).tasks = x.tasks ∨
        ∃ call, (x.next m).tasks = x.tasks ++ [SessionTask.mk call .made])) := by
  cases m with
  | make call => exact Or.inr ⟨rfl, rfl, Or.inr ⟨call, rfl⟩⟩
  | goOn i =>
    rcases ht : x.tasks[i]? with _ | t
    · rw [next_goOn_of_none ht]
      exact Or.inr ⟨rfl, rfl, Or.inl rfl⟩
    · rw [next_goOn ht]
      exact Or.inl ⟨i, t, _, rfl, ht, t.step_step (hx t (List.mem_of_getElem? ht)) x.session, rfl⟩
  | take | dropQueue => exact Or.inr ⟨rfl, rfl, Or.inl rfl⟩

/-! ### The tallies -/

/-- One call has ended the session if it is over, and one has settled the version if there is one;
no other call says so. -/
structure Tallied (x : SharedSession) : Prop where
  fits : ∀ t ∈ x.tasks, t.Fits
  ended : x.tasks.countP SessionTask.hasEnded = if x.session.state = .disconnected then 1 else 0
  settled : x.tasks.countP SessionTask.hasSettled = if x.session.version = none then 0 else 1

/-- A step of a task changes a tally by what the task says after it and did not say before. -/
lemma countP_set_of_not {l : List SessionTask} (p : SessionTask → Bool) {t' : SessionTask}
    (ht : l[i]? = some t) (hp : p t = false) :
    (l.set i t').countP p = l.countP p + if p t' = true then 1 else 0 := by
  obtain ⟨hi, rfl⟩ := List.getElem?_eq_some_iff.mp ht
  rw [List.countP_set hi, hp]
  rfl

/-- A step of a task is tallied. -/
lemma Tallied.step (h : x.Tallied) (ht : x.tasks[i]? = some t) {t' : SessionTask} {s' : Session}
    (hstep : SessionTask.Step t x.session t' s') :
    Tallied { session := s', tasks := x.tasks.set i t' } := by
  have hfits := SessionTask.fits_set h.fits ht hstep
  have hmade (hstage : ∀ report, t.stage ≠ .returned report) :=
    SessionTask.hasEnded_of_isFailure fun report hr => absurd hr (hstage report)
  cases hstep with
  | rests report hreport =>
    obtain ⟨hi, rfl⟩ := List.getElem?_eq_some_iff.mp ht
    rw [List.set_getElem_self]
    exact h
  | looks stage hstage hreport =>
    obtain ⟨hended, hsettled⟩ := hmade hstage
    obtain ⟨hended', hsettled'⟩ := SessionTask.hasEnded_of_isFailure (t := { t with stage }) hreport
    refine ⟨hfits, ?_, ?_⟩
    · simp [countP_set_of_not _ ht hended, hended', h.ended]
    · simp [countP_set_of_not _ ht hsettled, hsettled', h.settled]
  | moves next hcall hstage hmay =>
    obtain ⟨hended, hsettled⟩ := hmade (by simp [hstage])
    have hopen : x.session.state ≠ .disconnected := by
      intro hover
      rw [SessionState.mayBecome_of_isTerminal (by rw [hover]; rfl)] at hmay
      cases hmay
    refine ⟨hfits, ?_, ?_⟩
    · cases next <;>
        simp [countP_set_of_not _ ht hended, h.ended, hopen, SessionTask.hasEnded, hcall]
    · simp [countP_set_of_not _ ht hsettled, h.settled, SessionTask.hasSettled, hcall]
  | ends hcall hstage hopen =>
    obtain ⟨hended, hsettled⟩ := hmade (by simp [hstage])
    refine ⟨hfits, ?_, ?_⟩
    · simp [countP_set_of_not _ ht hended, h.ended, hopen, SessionTask.hasEnded, hcall]
    · simp [countP_set_of_not _ ht hsettled, h.settled, SessionTask.hasSettled, hcall]
  | settles v hcall hstage hnone =>
    obtain ⟨hended, hsettled⟩ := hmade (by simp [hstage])
    refine ⟨hfits, ?_, ?_⟩
    · simp [countP_set_of_not _ ht hended, h.ended, SessionTask.hasEnded, hcall]
    · simp [countP_set_of_not _ ht hsettled, h.settled, hnone, SessionTask.hasSettled, hcall]
  | pushes f hstage hcall =>
    obtain ⟨hended, hsettled⟩ := hmade (by simp [hstage])
    have hended' : SessionTask.hasEnded { t with stage := .returned .done } = false := by
      simp [SessionTask.hasEnded]
    have hsettled' : SessionTask.hasSettled { t with stage := .returned .done } = false := by
      simp [SessionTask.hasSettled, hcall]
    refine ⟨hfits, ?_, ?_⟩
    · simp [countP_set_of_not _ ht hended, hended', h.ended]
    · simp [countP_set_of_not _ ht hsettled, hsettled', h.settled]

lemma Tallied.next (h : x.Tallied) (m : Move) : (x.next m).Tallied := by
  rcases next_cases h.fits m with ⟨i, t, t', -, ht, hstep, htasks⟩ | ⟨hstate, hversion, htasks⟩
  · have hnext := h.step ht hstep
    rwa [← htasks] at hnext
  · rcases htasks with htasks | ⟨call, htasks⟩
    · constructor
      · rw [htasks]
        exact h.fits
      · rw [htasks, hstate]
        exact h.ended
      · rw [htasks, hversion]
        exact h.settled
    · obtain ⟨hended, hsettled⟩ :=
        SessionTask.hasEnded_of_isFailure (t := { call }) fun _ hr => by cases hr
      constructor
      · rw [htasks]
        exact SessionTask.fits_concat h.fits call
      · simp [htasks, hstate, h.ended, hended]
      · simp [htasks, hversion, h.settled, hsettled]

lemma Tallied.run (h : x.Tallied) (moves : List Move) : (x.run moves).Tallied := by
  induction moves generalizing x with
  | nil => exact h
  | cons m moves ih => exact ih (h.next m)

/-! ### The states and the version -/

lemma Tallied.state_next (h : x.Tallied) (m : Move) :
    (x.next m).session.state = x.session.state ∨
      x.session.state.Precedes (x.next m).session.state := by
  rcases next_cases h.fits m with ⟨i, t, t', -, -, hstep, -⟩ | ⟨hstate, -⟩
  · generalize (x.next m).session = s at hstep
    cases hstep with
    | rests | looks | settles | pushes => exact Or.inl rfl
    | moves next _ _ hmay => exact Or.inr (SessionState.precedes_of_mayBecome hmay)
    | ends _ _ hopen => exact Or.inr (.disconnected hopen)
  · exact Or.inl hstate

lemma exists_states_eq_cons (x : SharedSession) (moves : List Move) :
    ∃ rest, x.states moves = x.session.state :: rest := by
  induction moves generalizing x with
  | nil => exact ⟨[], rfl⟩
  | cons m moves ih =>
    rw [states]
    split_ifs with h
    · rw [← h]
      exact ih (x.next m)
    · exact ⟨_, rfl⟩

lemma Tallied.isChain_states (h : x.Tallied) (moves : List Move) :
    (x.states moves).IsChain SessionState.Precedes := by
  induction moves generalizing x with
  | nil => exact .singleton _
  | cons m moves ih =>
    rw [states]
    split_ifs with hstate
    · exact ih (h.next m)
    · obtain ⟨rest, hrest⟩ := exists_states_eq_cons (x.next m) moves
      have hchain := ih (h.next m)
      rw [hrest] at hchain ⊢
      exact .cons_cons ((h.state_next m).resolve_left hstate) hchain

lemma Tallied.state_next_of_disconnected (h : x.Tallied)
    (hover : x.session.state = .disconnected) (m : Move) :
    (x.next m).session.state = .disconnected := by
  rcases h.state_next m with hstate | hprecedes
  · rw [hstate, hover]
  · have hrank := hprecedes.rank
    rw [hover] at hrank
    exact Session.state_of_rank (Nat.le_of_lt hrank)

lemma Tallied.version_run (h : x.Tallied) {v : ProtocolVersion} (hv : x.session.version = some v)
    (moves : List Move) : (x.run moves).session.version = some v := by
  induction moves generalizing x with
  | nil => exact hv
  | cons m moves ih =>
    refine ih (h.next m) ?_
    rcases next_cases h.fits m with ⟨i, t, t', -, -, hstep, -⟩ | ⟨-, hversion, -⟩
    · generalize (x.next m).session = s at hstep
      cases hstep with
      | rests | looks | moves | ends | pushes => exact hv
      | settles w _ _ hnone => cases hnone.symm.trans hv
    · rw [hversion, hv]

/-! ### Single calls -/

/-- A call is at most one step further after a move. -/
lemma getElem?_next (ht : x.tasks[i]? = some t) (m : Move) :
    (x.next m).tasks[i]? = some t ∨
      m = .goOn i ∧ (x.next m).tasks[i]? = some (t.step x.session).1 := by
  have hi := (List.getElem?_eq_some_iff.mp ht).1
  cases m with
  | make call => exact Or.inl (by rw [next, List.getElem?_append_left hi, ht])
  | goOn j =>
    rcases hu : x.tasks[j]? with _ | u
    · rw [next_goOn_of_none hu]
      exact Or.inl ht
    · rw [next_goOn hu]
      by_cases hij : j = i
      · subst hij
        cases hu.symm.trans ht
        exact Or.inr ⟨rfl, by simp [hi]⟩
      · exact Or.inl (by simp [hij, ht])
  | take | dropQueue => exact Or.inl ht

/-- A call that has returned says the same ever after. -/
lemma getElem?_run_of_returned (ht : x.tasks[i]? = some t) {report : SessionReport}
    (hreport : t.stage = .returned report) (moves : List Move) :
    (x.run moves).tasks[i]? = some t := by
  induction moves generalizing x with
  | nil => exact ht
  | cons m moves ih =>
    refine ih ?_
    rcases getElem?_next ht m with h | ⟨-, h⟩
    · exact h
    · rwa [show (t.step x.session).1 = t by simp only [SessionTask.step, hreport]] at h

/-- A call that was made when the session was over: none of its frames is let pass. -/
structure Late (i : Nat) (x : SharedSession) : Prop where
  ended : x.session.state = .disconnected
  exists_task : ∃ t, x.tasks[i]? = some t ∧ ∀ f, t.stage ≠ .passed f

lemma Late.next (h : x.Tallied) (hlate : Late i x) (m : Move) :
    Late i (x.next m) := by
  obtain ⟨t, ht, hpassed⟩ := hlate.exists_task
  refine ⟨h.state_next_of_disconnected hlate.ended m, ?_⟩
  rcases getElem?_next ht m with hnext | ⟨-, hnext⟩
  · exact ⟨t, hnext, hpassed⟩
  · have hstep := t.step_step (h.fits t (List.mem_of_getElem? ht)) x.session
    exact ⟨_, hnext, (hstep.of_disconnected hlate.ended hpassed).2⟩

lemma Late.run (h : x.Tallied) (hlate : Late i x) (moves : List Move) : Late i (x.run moves) := by
  induction moves generalizing x with
  | nil => exact hlate
  | cons m moves ih => exact ih (h.next m) (hlate.next h m)

lemma Late.queue_next (h : x.Tallied) (hlate : Late i x) :
    (x.next (.goOn i)).session.queue = x.session.queue := by
  obtain ⟨t, ht, hpassed⟩ := hlate.exists_task
  have hstep := t.step_step (h.fits t (List.mem_of_getElem? ht)) x.session
  rw [next_goOn ht]
  exact (hstep.of_disconnected hlate.ended hpassed).1

/-- A call that is refused in the end has changed nothing on its way there. -/
lemma session_next_of_isFailure (h : x.Tallied) {u : SessionTask} {report : SessionReport}
    (hu : ((x.next (.goOn i)).run moves).tasks[i]? = some u)
    (hreport : u.stage = .returned report) (hfailure : report.isFailure = true) :
    (x.next (.goOn i)).session = x.session := by
  rcases ht : x.tasks[i]? with _ | t
  · rw [next_goOn_of_none ht]
  have hi := (List.getElem?_eq_some_iff.mp ht).1
  have hstep := t.step_step (h.fits t (List.mem_of_getElem? ht)) x.session
  have hnext : (x.next (.goOn i)).tasks[i]? = some (t.step x.session).1 := by
    rw [next_goOn ht, List.getElem?_set_self hi]
  have hsame (r : SessionReport) (hr : (t.step x.session).1.stage = .returned r) : r = report := by
    have hlast := getElem?_run_of_returned hnext hr moves
    cases hlast.symm.trans hu
    exact CallStage.returned.inj (hr.symm.trans hreport)
  rw [next_goOn ht]
  rcases hstep.session_eq_or with hsession | ⟨r, hr, hsuccess⟩
  · exact hsession
  · rw [hsame r hr, hfailure] at hsuccess
    cases hsuccess

end SharedSession

open SharedSession in
/-- **The life of a session.**  Whatever tasks make calls on a new session, and in whatever order
they go on: the states of the session only go forward, and it is suspended only when it is active
and active only after the handshake; exactly one call says that it has ended the session if it is
over, and none if it is not; at most one call settles the version, which then stays; a call that is
made when the session is over puts nothing into the queue; and no step of a call that is refused in
the end, or finds that another one was faster, changes the session. -/
theorem session_lifecycle {x : SharedSession} (htasks : x.tasks = [])
    (hstate : x.session.state ≠ .disconnected) (hversion : x.session.version = none)
    (moves : List Move) :
    (x.states moves).IsChain SessionState.Precedes ∧
      (x.run moves).tasks.countP SessionTask.hasEnded =
        (if (x.run moves).session.state = .disconnected then 1 else 0) ∧
      (x.run moves).tasks.countP SessionTask.hasSettled ≤ 1 ∧
      ∀ before after, moves = before ++ after →
        (∀ v, (x.run before).session.version = some v →
          (x.run moves).session.version = some v) ∧
        (∀ call rest, after = .make call :: rest → (x.run before).session.state = .disconnected →
          ((x.run moves).next (.goOn (x.run before).tasks.length)).session.queue =
            (x.run moves).session.queue) ∧
        ∀ i rest t report, after = .goOn i :: rest → (x.run moves).tasks[i]? = some t →
          t.stage = .returned report → report.isFailure = true →
          (x.run (before ++ [.goOn i])).session = (x.run before).session := by
  have hx : x.Tallied :=
    ⟨by simp [htasks], by simp [htasks, hstate], by simp [htasks, hversion]⟩
  have hmoves := hx.run moves
  refine ⟨hx.isChain_states moves, hmoves.ended, ?_, ?_⟩
  · rw [hmoves.settled]
    split_ifs <;> simp
  · rintro before after rfl
    have hbefore := hx.run before
    refine ⟨fun v hv => ?_, ?_, ?_⟩
    · rw [run_append]
      exact hbefore.version_run hv after
    · rintro call rest rfl hover
      have hlate : Late (x.run before).tasks.length ((x.run before).next (.make call)) :=
        ⟨hover, _, List.getElem?_concat_length, fun f hf => by cases hf⟩
      rw [run_append]
      exact (hlate.run (hbefore.next _) rest).queue_next ((hbefore.next _).run rest)
    · rintro i rest t report rfl ht hreport hfailure
      rw [run_append] at ht ⊢
      exact session_next_of_isFailure hbefore ht hreport hfailure

open SharedSession in
/-- Two tasks end a session while the frame of a third one has been let pass: the frame still gets
into the queue, and that of a call made later does not. -/
theorem session_lifecycle_race :
    let x : SharedSession :=
      { session := { id := "s", role := .server, remote := .v4 127 0 0 1 9000 } }
    let before : List Move :=
      [.make (.setVersion .newest), .goOn 0, .make (.moveTo .negotiating), .goOn 1,
        .make (.moveTo .active), .goOn 2, .make (.sendControl .heartbeat), .goOn 3, .goOn 3,
        .make .forceDisconnect, .make (.moveTo .disconnected), .goOn 5]
    let rest : List Move := [.goOn 3, .make (.sendControl .heartbeat), .goOn 6, .goOn 6]
    let moves := before ++ .goOn 4 :: rest
    x.tasks = [] ∧ x.session.state ≠ .disconnected ∧ x.session.version = none ∧
      x.states moves = [.connecting, .negotiating, .active, .disconnected] ∧
      (x.states moves).IsChain SessionState.Precedes ∧
      (x.run moves).tasks.countP SessionTask.hasEnded = 1 ∧
      (x.run moves).tasks.countP SessionTask.hasSettled ≤ 1 ∧
      (x.run (before ++ [.goOn 4])).session = (x.run before).session ∧
      (x.run moves).session.queue = [.control .newest .heartbeat] ∧
      ((x.run moves).next (.goOn 6)).session.queue = (x.run moves).session.queue := by
  intro x before rest moves
  have hstate : x.session.state ≠ .disconnected := by decide
  obtain ⟨hchain, hended, hsettled, hcalls⟩ := session_lifecycle (x := x) rfl hstate rfl moves
  have hover : (x.run moves).session.state = .disconnected := by decide +kernel
  rw [if_pos hover] at hended
  have hslower := (hcalls before _ rfl).2.2 4 rest
    ⟨.forceDisconnect, .returned (.forced false)⟩ (.forced false) rfl (by decide +kernel) rfl rfl
  have hlate := (hcalls (before ++ [.goOn 4, .goOn 3])
    (.make (.sendControl .heartbeat) :: [.goOn 6, .goOn 6]) rfl).2.1 _ _ rfl (by decide +kernel)
  have hlast : (x.run (before ++ [.goOn 4, .goOn 3])).tasks.length = 6 := by decide +kernel
  rw [hlast] at hlate
  exact ⟨rfl, hstate, rfl, by decide +kernel, hchain, hended, hsettled, hslower, by decide +kernel,
    hlate⟩

end RemoteCall
