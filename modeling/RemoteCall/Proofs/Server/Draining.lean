/-
# A drain loses no answer

A request is taken off the count after its answer has been put into the queue, or has been refused
because the session was over.  So when a drain finds the count at zero, the requests received until
then have their answers in the queue, unless the session is over; and a session that is over takes
no DISCONNECT any more, whatever happens between the look at the count and the attempt to send it.
-/
import Mathlib.Data.List.Induction
import RemoteCall.Proofs.Drain
import RemoteCall.Proofs.Server.Answering
import RemoteCall.Server.Draining

namespace RemoteCall

/-! ## Steps of a session with its drains -/

lemma Serving.queue_prefix_receive (v : Serving) (now : Duration) (incoming : Incoming) :
    v.session.queue <+: (v.receive now incoming).2.session.queue := by
  cases incoming with
  | frame f =>
    rcases hf : f.type <;> simp only [receive, hf, Session.queue_closed]
    case suspend => exact (v.session.recordRead now f.size).queue_prefix_perform _
    all_goals exact List.prefix_rfl
  | _ =>
    simp only [receive, Session.queue_closed]
    exact List.prefix_rfl

namespace ServedSession

variable {d : Dispatcher} {x : ServedSession} {m : Move}

/-- Only the writer takes frames out of the queue. -/
lemma queue_prefix_next (hm : ∀ now outcome, m ≠ .write now outcome) :
    x.serving.session.queue <+: (x.next d m).serving.session.queue := by
  cases m with
  | receive now incoming =>
    simp only [next]
    split
    · exact x.serving.queue_prefix_receive now incoming
    · exact List.prefix_rfl
  | notice =>
    simp only [next]
    split <;> exact List.prefix_rfl
  | begin i =>
    rcases x.serving.begin_cases i with h | ⟨_, -, h⟩ <;> simp only [next, h, List.prefix_rfl]
  | pass i outcome =>
    rcases x.serving.pass_cases d i outcome with h | ⟨_, -, h⟩ <;>
      simp only [next, h, List.prefix_rfl]
  | enqueue i =>
    rcases x.serving.enqueue_cases i with h | ⟨_, _, -, -, ⟨-, h⟩ | ⟨-, h⟩⟩ <;> simp only [next, h]
    exacts [List.prefix_rfl, List.prefix_append _ _, List.prefix_rfl]
  | retire i =>
    rcases x.serving.retire_cases i with ⟨h, -⟩ | ⟨_, -, h⟩ <;> simp only [next, h] <;>
      exact List.prefix_rfl
  | write now outcome => exact absurd rfl (hm now outcome)
  | perform call => exact x.serving.session.queue_prefix_perform call

/-- A session that is over stays so. -/
lemma over_next (hw : x.writer.Heeds x.serving.session)
    (h : x.serving.session.state = .disconnected) (d : Dispatcher) (m : Move) :
    (x.next d m).serving.session.state = .disconnected := by
  have hanswering : m.isAnswering = true → (x.next d m).serving.session.state = .disconnected :=
    fun hm => (x.state_next_of_isAnswering hm).trans h
  cases m with
  | receive now incoming =>
    simp only [next]
    split
    · rcases x.serving.receive_cases now incoming with ⟨f, s, -, -, hs, hy⟩ | ⟨-, s, hs, hy⟩ <;>
        rw [hy] <;> exact hs.stays h
    · exact h
  | notice =>
    simp only [next]
    split <;> exact h
  | write now outcome => exact (x.writer.step_passes hw now outcome).1.stays h
  | perform call => exact Session.state_perform_of_disconnected h call
  | begin i => exact hanswering rfl
  | pass i outcome => exact hanswering rfl
  | enqueue i => exact hanswering rfl
  | retire i => exact hanswering rfl

lemma IsNew.heeds {v : ProtocolVersion} (hx : x.IsNew v) : x.writer.Heeds x.serving.session := by
  intro hstop
  rw [Writer.isStopping, hx.writer] at hstop
  cases hstop

end ServedSession

namespace DrainedSession

/-! ## What happens in a run -/

/-- The step belongs to a drain. -/
def Move.isOf (i : Nat) : Move → Bool
  | .drain j _ => j == i
  | _ => false

/-- The requests that a step receives. -/
def received (x : DrainedSession) : Move → List Frame
  | .serve m => x.served.received m
  | _ => []

/-- The requests that a step takes off the count. -/
def retired (x : DrainedSession) : Move → List Frame
  | .serve m => x.served.retired m
  | _ => []

/-- The frames that a step puts into the queue, if it is a step of the task of a request. -/
def sent (d : Dispatcher) (x : DrainedSession) : Move → List Frame
  | .serve m => x.served.sent d m
  | _ => []

/-- The frames that a step puts into the queue, whosever step it is; the writer only takes frames
out. -/
def put (d : Dispatcher) (p : DrainPolicy) (x : DrainedSession) (m : Move) : List Frame :=
  match m with
  | .serve (.write ..) => []
  | m => (x.next d p m).session.queue.drop x.session.queue.length

/-- What the steps of a run yield. -/
def history (d : Dispatcher) (p : DrainPolicy) (f : DrainedSession → Move → List Frame)
    (x : DrainedSession) : List Move → List Frame
  | [] => []
  | m :: ms => f x m ++ (x.next d p m).history d p f ms

variable {d : Dispatcher} {p : DrainPolicy} {v : ProtocolVersion} {x : DrainedSession} {i : Nat}
  {R E A : List Frame}

lemma history_append (f : DrainedSession → Move → List Frame) (ms ms' : List Move) :
    x.history d p f (ms ++ ms') = x.history d p f ms ++ (x.run d p ms).history d p f ms' := by
  induction ms generalizing x with
  | nil => rfl
  | cons m ms ih =>
    simp only [List.cons_append, history, ih, run, List.foldl_cons, List.append_assoc]

lemma history_sublist {f g : DrainedSession → Move → List Frame}
    (h : ∀ x m, (f x m).Sublist (g x m)) (ms : List Move) :
    (x.history d p f ms).Sublist (x.history d p g ms) := by
  induction ms generalizing x with
  | nil => exact .slnil
  | cons m ms ih => exact (h x m).append ih

lemma run_concat (ms : List Move) (m : Move) :
    x.run d p (ms ++ [m]) = (x.run d p ms).next d p m := by
  simp only [run, List.foldl_append, List.foldl_cons, List.foldl_nil]

lemma run_append (ms ms' : List Move) : x.run d p (ms ++ ms') = (x.run d p ms).run d p ms' :=
  List.foldl_append

/-- The tasks of requests put their answers into the queue like everybody else. -/
lemma sent_sublist_put (x : DrainedSession) (m : Move) : (x.sent d m).Sublist (x.put d p m) := by
  cases m with
  | serve m =>
    by_cases hm : m.isAnswering = true
    · have heq : x.sent d (.serve m) = x.put d p (.serve m) := by
        cases m <;> first | rfl | cases hm
      rw [heq]
    · rw [sent, ServedSession.sent, if_neg hm]
      exact List.nil_sublist _
  | startDrain => exact List.nil_sublist _
  | drain i now => exact List.nil_sublist _

/-- The queue holds the last of the frames that were put into it. -/
lemma queue_suffix_next (x : DrainedSession) (m : Move) :
    (x.next d p m).session.queue <:+ x.session.queue ++ x.put d p m := by
  have hput : x.session.queue <+: (x.next d p m).session.queue →
      (x.next d p m).session.queue <:+ x.session.queue ++
        (x.next d p m).session.queue.drop x.session.queue.length := by
    intro h
    simp only [List.prefix_iff_eq_append.mp h, List.suffix_rfl]
  cases m with
  | serve m =>
    cases m with
    | write now outcome =>
      rw [put, List.append_nil]
      exact x.served.writer.queue_suffix_step now x.session outcome
    | _ => exact hput (ServedSession.queue_prefix_next fun _ _ h => by cases h)
  | startDrain => exact hput List.prefix_rfl
  | drain i now =>
    refine hput ?_
    rcases h : x.drains[i]? with _ | stage <;> simp only [next, h]
    · exact List.prefix_rfl
    · exact stage.queue_prefix_step p .clockEnd now x.session

lemma queue_suffix_run (ms : List Move) :
    (x.run d p ms).session.queue <:+ x.session.queue ++ x.history d p (put d p) ms := by
  induction ms generalizing x with
  | nil =>
    rw [history, List.append_nil]
    exact List.suffix_rfl
  | cons m ms ih =>
    rw [history, ← List.append_assoc]
    exact ih.trans (List.suffix_append_self_iff.mpr (x.queue_suffix_next m))

/-! ## What every run keeps -/

lemma heeds_next (hw : x.served.writer.Heeds x.session) (m : Move) :
    (x.next d p m).served.writer.Heeds (x.next d p m).session := by
  cases m with
  | serve m => exact ServedSession.heeds_next hw d m
  | startDrain => exact hw
  | drain i now =>
    rcases h : x.drains[i]? with _ | stage <;> simp only [next, h]
    · exact hw
    · exact hw.passes (stage.step_passes p .clockEnd now x.session)

open ServedSession in
/-- A drain is a change that the tasks of the requests need not know of. -/
lemma kept_next (h : Kept d v x.session x.served.serving.requests R E A)
    (hw : x.served.writer.Heeds x.session) (m : Move) :
    Kept d v (x.next d p m).session (x.next d p m).served.serving.requests (R ++ x.received m)
      (E ++ x.retired m) (A ++ x.sent d m) := by
  cases m with
  | serve m => exact ServedSession.kept_next h hw m
  | startDrain =>
    simp only [received, retired, sent, List.append_nil]
    exact h
  | drain i now =>
    simp only [received, retired, sent, List.append_nil]
    rcases hi : x.drains[i]? with _ | stage <;> simp only [next, hi]
    · exact h
    · exact h.passes (stage.step_passes p .clockEnd now x.session)

open ServedSession in
lemma kept_run (h : Kept d v x.session x.served.serving.requests R E A)
    (hw : x.served.writer.Heeds x.session) (ms : List Move) :
    Kept d v (x.run d p ms).session (x.run d p ms).served.serving.requests
      (R ++ x.history d p received ms) (E ++ x.history d p retired ms)
      (A ++ x.history d p (sent d) ms) := by
  induction ms generalizing x R E A with
  | nil => simpa [history, run] using h
  | cons m ms ih =>
    have hms := ih (kept_next (p := p) h hw m) (heeds_next hw m)
    simpa only [history, run, List.foldl_cons, List.append_assoc] using hms

lemma heeds_run (hw : x.served.writer.Heeds x.session) (ms : List Move) :
    (x.run d p ms).served.writer.Heeds (x.run d p ms).session := by
  induction ms generalizing x with
  | nil => exact hw
  | cons m ms ih => exact ih (heeds_next hw m)

lemma over_run (hw : x.served.writer.Heeds x.session) (h : x.session.state = .disconnected)
    (ms : List Move) : (x.run d p ms).session.state = .disconnected := by
  induction ms generalizing x with
  | nil => exact h
  | cons m ms ih =>
    refine ih (heeds_next hw m) ?_
    cases m with
    | serve m => exact ServedSession.over_next hw h d m
    | startDrain => exact h
    | drain i now =>
      rcases hi : x.drains[i]? with _ | stage <;> simp only [next, hi]
      · exact h
      · exact (stage.step_passes p .clockEnd now x.session).stays h

/-! ## The look at the count -/

/-- A drain begins to part in quiet when it looks at a count of zero. -/
lemma parting_next {m : Move} (h : (x.next d p m).drains[i]? = some (.parting true)) :
    (m.isOf i = false ∧ x.drains[i]? = some (.parting true)) ∨
      ∃ now deadline, m = .drain i now ∧ x.drains[i]? = some (.looking deadline) ∧
        x.session.outstanding = 0 := by
  cases m with
  | serve m => exact Or.inl ⟨rfl, h⟩
  | startDrain =>
    refine Or.inl ⟨rfl, ?_⟩
    rcases Nat.lt_or_ge i x.drains.length with hi | hi
    · exact (List.getElem?_append_left hi).symm.trans h
    · rw [next, List.getElem?_append_right hi, List.getElem?_singleton] at h
      split at h <;> cases h
  | drain j now =>
    rcases hj : x.drains[j]? with _ | stage <;> simp only [next, hj] at h
    · left
      refine ⟨?_, h⟩
      rw [Move.isOf, beq_eq_false_iff_ne]
      rintro rfl
      cases hj.symm.trans h
    · by_cases hij : j = i
      · subst hij
        obtain ⟨hlt, -⟩ := List.getElem?_eq_some_iff.mp hj
        rw [List.getElem?_set_self hlt] at h
        obtain ⟨⟨deadline, rfl⟩, hcount⟩ :=
          DrainStage.of_step_eq_parting_true (Option.some.inj h)
        exact Or.inr ⟨now, deadline, rfl, hj, hcount⟩
      · left
        rw [List.getElem?_set_ne hij] at h
        exact ⟨beq_eq_false_iff_ne.mpr hij, h⟩

/-- A drain that parts in quiet has looked at the count and found it at zero, and has not gone on
since. -/
lemma exists_look (hx : x.drains = []) (ms : List Move)
    (h : (x.run d p ms).drains[i]? = some (.parting true)) :
    ∃ before later now deadline, ms = before ++ .drain i now :: later ∧
      (∀ m ∈ later, m.isOf i = false) ∧
      (x.run d p before).drains[i]? = some (.looking deadline) ∧
      (x.run d p before).session.outstanding = 0 := by
  induction ms using List.reverseRecOn with
  | nil =>
    rw [run, List.foldl_nil, hx] at h
    cases h
  | append_singleton ms m ih =>
    rw [run_concat] at h
    rcases parting_next h with ⟨hm, h⟩ | ⟨now, deadline, rfl, hlook, hcount⟩
    · obtain ⟨before, later, now, deadline, rfl, hlater, hlook⟩ := ih h
      refine ⟨before, later ++ [m], now, deadline, by simp, fun m' hm' => ?_, hlook⟩
      rcases List.mem_append.mp hm' with hm' | hm'
      · exact hlater m' hm'
      · rw [List.mem_singleton.mp hm', hm]
    · exact ⟨ms, [], now, deadline, rfl, by simp, hlook, hcount⟩

/-- What a drain puts into the queue when it parts. -/
lemma put_parting {quiet : Bool} {now : Duration} {f : Frame} (hv : x.session.version = some v)
    (hi : x.drains[i]? = some (.parting quiet)) (hf : f ∈ x.put d p (.drain i now)) :
    x.session.state ≠ .disconnected ∧ x.put d p (.drain i now) = [.control v .disconnect] := by
  have hput : x.put d p (.drain i now) =
      ((DrainStage.parting quiet).step p .clockEnd now x.session).2.queue.drop
        x.session.queue.length := by
    simp only [put, next, hi]
    rfl
  rcases h : x.session.sendControl .disconnect with e | t
  · simp [hput, DrainStage.step, h, Session.queue_closed] at hf
  · simp only [hput, DrainStage.step, h]
    rw [Session.sendControl, hv] at h
    obtain ⟨hstate, -, rfl⟩ := Session.sendFrame_eq_ok.mp h
    exact ⟨hstate, List.drop_left⟩

/-! ## The main theorem -/

/-- As long as the session is not over, a count of zero says that all requests that have been
received are answered in the queue. -/
lemma answered_of_outstanding_eq_zero (hx : x.served.IsNew v) {ms : List Move}
    (hcount : (x.run d p ms).session.outstanding = 0)
    (hopen : (x.run d p ms).session.state ≠ .disconnected) :
    ∃ done answers, done.Perm (x.history d p received ms) ∧
      List.Forall₂ (d.Answers v) done answers ∧
      answers.Sublist (x.history d p (put d p) ms) := by
  have h := kept_run (p := p) (hx.kept d) hx.heeds ms
  have hnone : (x.run d p ms).served.serving.requests = [] :=
    List.length_eq_zero_iff.mp (h.outstanding.symm.trans hcount)
  obtain ⟨done, hdone, hanswers⟩ := h.answered hopen
  have hreceived := h.received
  simp only [hnone, ServedSession.requestsOf, ServedSession.answeredOf, List.filter_nil,
    List.map_nil, List.append_nil, List.nil_append] at hdone hanswers hreceived
  exact ⟨done, _, hdone.trans hreceived.symm, hanswers, history_sublist sent_sublist_put ms⟩

/-- **A drain loses no answer.**  When a drain puts a frame into the queue because it has found no
request under way, the frame is DISCONNECT, and at the time of its last look at the count each
request that had been received until then had an answer of its own in the queue; what other tasks
and other drains do meanwhile does not matter.  The queue is a suffix of all frames that were put
into it, the DISCONNECT being the last of them, so the answers are ahead of it. -/
theorem drain_loses_no_answer (d : Dispatcher) (p : DrainPolicy) (hx : x.served.IsNew v)
    (hdrains : x.drains = []) (ms : List Move)
    (hi : (x.run d p ms).drains[i]? = some (.parting true)) {now : Duration} {f : Frame}
    (hf : f ∈ (x.run d p ms).put d p (.drain i now)) :
    f = .control v .disconnect ∧
      ∃ before later look, ms = before ++ .drain i look :: later ∧
        (∀ m ∈ later, m.isOf i = false) ∧
        (∃ deadline, (x.run d p before).drains[i]? = some (.looking deadline)) ∧
        (x.run d p before).session.outstanding = 0 ∧
        ∃ done answers between, done.Perm (x.history d p received before) ∧
          List.Forall₂ (d.Answers v) done answers ∧
          answers.Sublist (x.history d p (put d p) before) ∧
          (x.run d p (ms ++ [.drain i now])).session.queue <:+
            x.session.queue ++ (x.history d p (put d p) before ++ (between ++ [f])) := by
  have hversion := (kept_run (p := p) (hx.kept d) hx.heeds ms).version
  obtain ⟨hopen, hput⟩ := put_parting hversion hi hf
  obtain rfl : f = .control v .disconnect := List.mem_singleton.mp (hput ▸ hf)
  obtain ⟨before, later, look, deadline, rfl, hlater, hlook, hcount⟩ := exists_look hdrains ms hi
  have hlast : (x.run d p (before ++ .drain i look :: later)).history d p (put d p)
      [.drain i now] = [.control v .disconnect] := by
    rw [history, history, List.append_nil, hput]
  -- the session was not over at the look, as it is not over now
  have hopen' : (x.run d p before).session.state ≠ .disconnected := by
    intro hover
    rw [run_append] at hopen
    exact hopen (over_run (heeds_run hx.heeds before) hover _)
  obtain ⟨done, answers, hdone, hanswers, hsublist⟩ :=
    answered_of_outstanding_eq_zero hx hcount hopen'
  refine ⟨rfl, before, later, look, rfl, hlater, ⟨deadline, hlook⟩, hcount, done, answers,
    (x.run d p before).history d p (put d p) (.drain i look :: later), hdone, hanswers, hsublist,
    ?_⟩
  have hqueue := queue_suffix_run (d := d) (p := p) (x := x)
    (before ++ .drain i look :: later ++ [.drain i now])
  rwa [history_append, hlast, history_append,
    List.append_assoc (x.history d p (put d p) before)] at hqueue

/-- Two drains look while a request is under way and again when it has been answered; another
request arrives, and one of the drains parts, before the other one does. -/
theorem drain_loses_no_answer_overtaken :
    let d : Dispatcher := { operations := { registry := {} } }
    let p : DrainPolicy := { window := .ofMillis 5000, pause := .ofMillis 5 }
    let s : Session :=
      { id := "s", role := .server, remote := .v4 127 0 0 1 9000, state := .negotiating }
    let hello : Hello := { range := default, clientId := "c" }
    let x : DrainedSession :=
      { served := { serving := { session := Server.openSession s hello .newest } } }
    let request : Frame := .make .newest .request 7 []
    let late : Frame := .make .newest .request 8 []
    let moves : List Move := [.serve (.receive ⟨0⟩ (.frame request)), .startDrain, .startDrain,
      .drain 0 ⟨0⟩, .drain 1 ⟨0⟩, .drain 0 ⟨0⟩, .drain 1 ⟨0⟩, .serve (.begin 0), .drain 0 ⟨0⟩,
      .serve (.pass 0 .brokeDown), .drain 1 ⟨0⟩, .serve (.enqueue 0), .serve (.retire 0),
      .drain 0 (.ofMillis 5), .drain 1 (.ofMillis 5), .drain 0 (.ofMillis 6),
      .drain 1 (.ofMillis 6), .serve (.receive (.ofMillis 6) (.frame late)), .drain 1 (.ofMillis 6)]
    let y := x.run d p moves
    x.served.IsNew .newest ∧ y.drains[0]? = some (.parting true) ∧
      Frame.control .newest .disconnect ∈ y.put d p (.drain 0 (.ofMillis 7)) ∧
      x.history d p received moves = [request, late] ∧
      (x.history d p (put d p) moves).map Frame.type =
        [.suspend, .suspend, .responseFault, .disconnect] ∧
      ∃ before later look, moves = before ++ .drain 0 look :: later ∧
        ∃ done answers, done.Perm (x.history d p received before) ∧
          List.Forall₂ (d.Answers .newest) done answers ∧
          answers.Sublist (x.history d p (put d p) before) := by
  intro d p s hello x request late moves y
  have hx : x.served.IsNew .newest := ServedSession.isNew_openSession rfl rfl rfl hello .newest
  have hi : y.drains[0]? = some (.parting true) := by decide +kernel
  have hf : Frame.control .newest .disconnect ∈ y.put d p (.drain 0 (.ofMillis 7)) := by
    decide +kernel
  obtain ⟨-, before, later, look, hmoves, -, -, -, done, answers, -, hdone, hanswers, hsublist,
    -⟩ := drain_loses_no_answer d p hx rfl moves hi hf
  exact ⟨hx, hi, hf, by decide +kernel, by decide +kernel, before, later, look, hmoves, done,
    answers, hdone, hanswers, hsublist⟩

end DrainedSession

end RemoteCall
