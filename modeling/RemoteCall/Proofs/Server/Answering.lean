/-
# One answer for each request

A request that has been received stays with its session until its task takes it off the count, so
that the count is the number of requests that are there.  A task looks at the state of the session
before it puts its answer into the queue, and may find no reader of the queue then; but the queue
loses its reader only when the session is over.  So as long as the session is not over, each task
that has come to its end has put one answer into the queue.
-/
import Mathlib.Data.List.Perm.Basic
import RemoteCall.Proofs.Server.Dispatch
import RemoteCall.Server.Answering
import RemoteCall.Server.Basic

namespace RemoteCall

/-- The answer to a request has been sent, or was refused. -/
def RequestTask.isAnswered (r : RequestTask) : Bool := r.stage == .answered

namespace ServedSession

/-! ## What happens in a run -/

/-- The requests that a step receives. -/
def received (x : ServedSession) : Move → List Frame
  | .receive _ (.frame f) => if x.reading && f.type == .request then [f] else []
  | _ => []

/-- The requests that a step takes off the count. -/
def retired (x : ServedSession) : Move → List Frame
  | .retire i =>
    match x.serving.requests[i]? with
    | some { request, stage := .answered } => [request]
    | _ => []
  | _ => []

/-- A step of the task that answers a request. -/
def Move.isAnswering : Move → Bool
  | .begin _ | .pass .. | .enqueue _ | .retire _ => true
  | _ => false

/-- The frames that a step puts into the queue, if it is a step of the task of a request. -/
def sent (d : Dispatcher) (x : ServedSession) (m : Move) : List Frame :=
  if m.isAnswering then
    (x.next d m).serving.session.queue.drop x.serving.session.queue.length
  else []

/-- What the steps of a run yield. -/
def history (d : Dispatcher) (f : ServedSession → Move → List Frame) (x : ServedSession) :
    List Move → List Frame
  | [] => []
  | m :: ms => f x m ++ (x.next d m).history d f ms

/-- The requests of some tasks. -/
def requestsOf (l : List RequestTask) : List Frame := l.map RequestTask.request

/-- The requests of the tasks that have sent their answer, or could not. -/
def answeredOf (l : List RequestTask) : List Frame := requestsOf (l.filter RequestTask.isAnswered)

/-! ## The invariant -/

variable {d : Dispatcher} {v : ProtocolVersion} {s t : Session} {l l' : List RequestTask}
  {r r' : RequestTask} {request f : Frame} {R E A : List Frame}

/-- The requests `R` that have been received are those that have been taken off the count, `E`, and
those whose tasks are there; unless the session is over, the tasks that have come to their end
have put the answers `A` into the queue. -/
structure Kept (d : Dispatcher) (v : ProtocolVersion) (s : Session) (l : List RequestTask)
    (R E A : List Frame) : Prop where
  version : s.version = some v
  outstanding : s.outstanding = l.length
  reader : s.queueOpen = true ∨ s.state = .disconnected
  received : R.Perm (E ++ requestsOf l)
  admitted : ∀ r ∈ l, ∀ f, r.stage = .admitted f → d.Answers v r.request f
  answered : s.state ≠ .disconnected →
    ∃ done, done.Perm (E ++ answeredOf l) ∧ List.Forall₂ (d.Answers v) done A

namespace Kept

lemma perm (h : Kept d v s l R E A) (hl : l.Perm l') : Kept d v s l' R E A := by
  refine ⟨h.version, h.outstanding.trans hl.length_eq, h.reader,
    h.received.trans ((hl.map _).append_left E), fun r hr => h.admitted r (hl.mem_iff.mpr hr),
    fun hs => ?_⟩
  obtain ⟨done, hdone, hsent⟩ := h.answered hs
  exact ⟨done, hdone.trans (((hl.filter _).map _).append_left E), hsent⟩

lemma passes (h : Kept d v s l R E A) (hs : s.Passes t) : Kept d v t l R E A := by
  refine ⟨hs.version v h.version, hs.outstanding.trans h.outstanding, ?_, h.received, h.admitted,
    fun ht => h.answered fun hover => ht (hs.stays hover)⟩
  rcases hs.reader with hopen | hover
  · exact h.reader.imp hopen.trans hs.stays
  · exact Or.inr hover

lemma arrive (h : Kept d v s l R E A) (f : Frame) :
    Kept d v s.countUp (l ++ [{ request := f }]) (R ++ [f]) E A := by
  have hanswered : answeredOf (l ++ [{ request := f }]) = answeredOf l := by
    simp [answeredOf, RequestTask.isAnswered]
  refine ⟨h.version, ?_, h.reader, ?_, ?_, fun hs => ?_⟩
  · simp [Session.countUp, h.outstanding]
  · rw [requestsOf, List.map_append, ← List.append_assoc]
    exact h.received.append_right [f]
  · intro r hr g hg
    rcases List.mem_append.mp hr with hr | hr
    · exact h.admitted r hr g hg
    · cases List.mem_singleton.mp hr
      cases hg
  · rw [hanswered]
    exact h.answered hs

/-- The task of a request goes on and has not yet come to its end. -/
lemma goOn (h : Kept d v s (r :: l) R E A) (hrequest : r'.request = r.request)
    (hr : r.isAnswered = false) (hr' : r'.isAnswered = false)
    (hadmitted : ∀ f, r'.stage = .admitted f → d.Answers v r'.request f) :
    Kept d v s (r' :: l) R E A := by
  have hanswered : answeredOf (r' :: l) = answeredOf (r :: l) := by
    simp [answeredOf, hr, hr']
  refine ⟨h.version, h.outstanding, h.reader, ?_, ?_, fun hs => ?_⟩
  · rw [requestsOf, List.map_cons, hrequest]
    exact h.received
  · intro q hq f hf
    rcases List.mem_cons.mp hq with rfl | hq
    · exact hadmitted f hf
    · exact h.admitted q (List.mem_cons_of_mem _ hq) f hf
  · rw [hanswered]
    exact h.answered hs

/-- When the session is over, a task may come to its end without an answer. -/
lemma giveUp (h : Kept d v s (r :: l) R E A) (hs : s.state = .disconnected) :
    Kept d v s ({ r with stage := .answered } :: l) R E A := by
  refine ⟨h.version, h.outstanding, h.reader, h.received, ?_, fun hopen => absurd hs hopen⟩
  intro q hq f hf
  rcases List.mem_cons.mp hq with rfl | hq
  · cases hf
  · exact h.admitted q (List.mem_cons_of_mem _ hq) f hf

/-- A task comes to its end by putting its answer into the queue. -/
lemma send (h : Kept d v s ({ request, stage := .admitted f } :: l) R E A) :
    Kept d v { s with queue := s.queue ++ [f] } ({ request, stage := .answered } :: l) R E
      (A ++ [f]) := by
  refine ⟨h.version, h.outstanding, h.reader, h.received, ?_, fun hs => ?_⟩
  · intro q hq g hg
    rcases List.mem_cons.mp hq with rfl | hq
    · cases hg
    · exact h.admitted q (List.mem_cons_of_mem _ hq) g hg
  · obtain ⟨done, hdone, hsent⟩ := h.answered hs
    have hanswers : d.Answers v request f := h.admitted _ List.mem_cons_self f rfl
    refine ⟨done ++ [request], ?_, List.rel_append hsent (.cons hanswers .nil)⟩
    have hmoved : (E ++ answeredOf l ++ [request]).Perm (E ++ request :: answeredOf l) := by
      rw [List.append_assoc]
      exact (List.perm_append_singleton _ _).append_left E
    exact (hdone.append_right [request]).trans hmoved

lemma retire (h : Kept d v s ({ request, stage := .answered } :: l) R E A) :
    Kept d v s.countDown l R (E ++ [request]) A := by
  have hcount : s.countDown.outstanding = l.length := by
    simp [Session.countDown, h.outstanding]
  refine ⟨h.version, hcount, h.reader, ?_, fun q hq => h.admitted q (List.mem_cons_of_mem _ hq),
    fun hs => ?_⟩
  · rw [List.append_assoc]
    exact h.received
  · rw [List.append_assoc]
    exact h.answered hs

/-- One task is replaced by another one, or ends. -/
lemma replace {B R' E' A' : List Frame} {i : Nat} (h : Kept d v s l R E B) (hr : l[i]? = some r)
    (hnext : Kept d v s (r :: l.eraseIdx i) R E B → Kept d v t (r' :: l.eraseIdx i) R' E' A') :
    Kept d v t (l.set i r') R' E' A' := by
  obtain ⟨hi, rfl⟩ := List.getElem?_eq_some_iff.mp hr
  exact (hnext (h.perm (List.getElem_cons_eraseIdx_perm hi).symm)).perm
    (List.set_perm_cons_eraseIdx hi r').symm

end Kept

/-! ## Steps of the tasks -/

variable {x : ServedSession} {m : Move} {i : Nat}

lemma sent_of_queue (hm : m.isAnswering = true)
    (h : (x.next d m).serving.session.queue = x.serving.session.queue) : x.sent d m = [] := by
  rw [sent, if_pos hm, h, List.drop_length]

/-- The tasks of the requests do not move the session to another state. -/
lemma state_next_of_isAnswering (x : ServedSession) (hm : m.isAnswering = true) :
    (x.next d m).serving.session.state = x.serving.session.state := by
  cases m with
  | begin i =>
    rcases x.serving.begin_cases i with h | ⟨_, -, h⟩ <;> simp only [next, h]
  | pass i outcome =>
    rcases x.serving.pass_cases d i outcome with h | ⟨_, -, h⟩ <;> simp only [next, h]
  | enqueue i =>
    rcases x.serving.enqueue_cases i with h | ⟨_, _, -, -, ⟨-, h⟩ | ⟨-, h⟩⟩ <;> simp only [next, h]
  | retire i =>
    rcases x.serving.retire_cases i with ⟨h, -⟩ | ⟨_, -, h⟩ <;> simp only [next, h]
    rfl
  | _ => cases hm

/-- What the invariant says of the session after a step. -/
def KeptNext (d : Dispatcher) (v : ProtocolVersion) (x : ServedSession) (R E A : List Frame)
    (m : Move) : Prop :=
  Kept d v (x.next d m).serving.session (x.next d m).serving.requests (R ++ x.received m)
    (E ++ x.retired m) (A ++ x.sent d m)

variable (h : Kept d v x.serving.session x.serving.requests R E A)
include h

lemma kept_next_of_eq (hm : m.isAnswering = true) (hy : x.next d m = x)
    (hE : x.retired m = []) : KeptNext d v x R E A m := by
  have hsent : x.sent d m = [] := sent_of_queue hm (by rw [hy])
  have hreceived : x.received m = [] := by cases m <;> first | rfl | cases hm
  rw [KeptNext, hy, hsent, hreceived, hE]
  simpa using h

lemma kept_begin (i : Nat) : KeptNext d v x R E A (.begin i) := by
  rcases x.serving.begin_cases i with hy | ⟨request, hr, hy⟩
  · exact kept_next_of_eq h rfl (by simp only [next, hy]) rfl
  · have hsent : x.sent d (.begin i) = [] := sent_of_queue rfl (by simp only [next, hy])
    simp only [KeptNext, hsent, received, retired, List.append_nil, next, hy]
    refine h.replace hr fun h => h.goOn rfl rfl rfl fun f hf => ?_
    cases hf

lemma kept_pass (i : Nat) (outcome : HandlerOutcome) :
    KeptNext d v x R E A (.pass i outcome) := by
  rcases x.serving.pass_cases d i outcome with hy | ⟨request, hr, hy⟩
  · exact kept_next_of_eq h rfl (by simp only [next, hy]) rfl
  · have hsent : x.sent d (.pass i outcome) = [] := sent_of_queue rfl (by simp only [next, hy])
    simp only [KeptNext, hsent, received, retired, List.append_nil, next, hy]
    rcases Serving.admission_cases d h.version request outcome with ⟨f, hf, hstage⟩ | ⟨hs, hstage⟩
    · rw [hstage]
      refine h.replace hr fun h => h.goOn rfl rfl rfl fun g hg => ?_
      cases hg
      exact hf
    · rw [hstage]
      exact h.replace hr fun h => h.giveUp hs

lemma kept_enqueue (i : Nat) : KeptNext d v x R E A (.enqueue i) := by
  rcases x.serving.enqueue_cases i with hy | ⟨request, f, hr, hrequests, hy⟩
  · exact kept_next_of_eq h rfl (by simp only [next, hy]) rfl
  · simp only [KeptNext, received, retired, List.append_nil, next, hrequests]
    rcases hy with ⟨-, hy⟩ | ⟨hopen, hy⟩
    · have hsent : x.sent d (.enqueue i) = [f] := by
        simp [sent, Move.isAnswering, next, hy]
      rw [hsent, hy]
      exact h.replace hr fun h => h.send
    · -- the queue has lost its reader, so the session is over
      have hs : x.serving.session.state = .disconnected := h.reader.resolve_left (by simp [hopen])
      have hsent : x.sent d (.enqueue i) = [] := sent_of_queue rfl (by simp only [next, hy])
      rw [hsent, hy, List.append_nil]
      exact h.replace hr fun h => h.giveUp hs

lemma kept_retire (i : Nat) : KeptNext d v x R E A (.retire i) := by
  rcases x.serving.retire_cases i with ⟨hy, hne⟩ | ⟨request, hr, hy⟩
  · refine kept_next_of_eq h rfl (by simp only [next, hy]) ?_
    rw [retired]
    split
    · next request hr => exact absurd hr (hne request)
    · rfl
  · have hsent : x.sent d (.retire i) = [] := sent_of_queue rfl (by simp only [next, hy]; rfl)
    have hretired : x.retired (.retire i) = [request] := by simp only [retired, hr]
    simp only [KeptNext, hsent, hretired, received, List.append_nil, next, hy]
    obtain ⟨hi, hr⟩ := List.getElem?_eq_some_iff.mp hr
    have hl := (List.getElem_cons_eraseIdx_perm hi).symm
    rw [hr] at hl
    exact (h.perm hl).retire

lemma kept_receive (now : Duration) (incoming : Incoming) :
    KeptNext d v x R E A (.receive now incoming) := by
  have hsent : x.sent d (.receive now incoming) = [] := rfl
  have hretired : x.retired (.receive now incoming) = [] := rfl
  simp only [KeptNext, hsent, hretired, List.append_nil, next]
  by_cases hreading : x.reading = true
  · rw [if_pos hreading]
    rcases x.serving.receive_cases now incoming with ⟨f, s, rfl, hf, hs, hy⟩ | ⟨hne, s, hs, hy⟩
    · have hreceived : x.received (.receive now (.frame f)) = [f] := by
        simp [received, hreading, hf]
      rw [hreceived, hy]
      exact (h.passes hs).arrive f
    · have hreceived : x.received (.receive now incoming) = [] := by
        cases incoming with
        | frame f => simp [received, hne f rfl]
        | _ => rfl
      rw [hreceived, hy, List.append_nil]
      exact h.passes hs
  · have hreceived : x.received (.receive now incoming) = [] := by
      cases incoming <;> simp [received, hreading]
    rw [if_neg hreading, hreceived, List.append_nil]
    exact h

/-- **Every step keeps the requests with their session and answers them once.** -/
lemma kept_next (hw : x.writer.Heeds x.serving.session) (m : Move) : KeptNext d v x R E A m := by
  cases m with
  | receive now incoming => exact kept_receive h now incoming
  | begin i => exact kept_begin h i
  | pass i outcome => exact kept_pass h i outcome
  | enqueue i => exact kept_enqueue h i
  | retire i => exact kept_retire h i
  | notice =>
    simp only [KeptNext, received, retired, sent, Move.isAnswering, List.append_nil, next]
    split <;> simpa using h
  | write now outcome =>
    simpa [KeptNext, received, retired, sent, Move.isAnswering, next] using
      h.passes (x.writer.step_passes hw now outcome).1
  | perform call =>
    simpa [KeptNext, received, retired, sent, Move.isAnswering, next] using
      h.passes (.perform _ call)

omit h

/-- The writer stops only when the session is over, whatever the tasks do. -/
lemma heeds_next (hw : x.writer.Heeds x.serving.session) (d : Dispatcher) (m : Move) :
    (x.next d m).writer.Heeds (x.next d m).serving.session := by
  have hanswering : m.isAnswering = true → (x.next d m).writer = x.writer →
      (x.next d m).writer.Heeds (x.next d m).serving.session := by
    intro hm hwriter
    rw [Writer.Heeds, state_next_of_isAnswering x hm, hwriter]
    exact hw
  cases m with
  | receive now incoming =>
    simp only [next]
    by_cases hreading : x.reading = true
    · rw [if_pos hreading]
      rcases x.serving.receive_cases now incoming with ⟨f, s, -, -, hs, hy⟩ | ⟨-, s, hs, hy⟩
      · rw [hy]
        exact fun hstop => hs.stays (hw hstop)
      · rw [hy]
        exact hw.passes hs
    · rw [if_neg hreading]
      exact hw
  | notice =>
    simp only [next]
    split <;> exact hw
  | write now outcome => exact (x.writer.step_passes hw now outcome).2
  | perform call => exact hw.passes (.perform _ call)
  | begin i => exact hanswering rfl rfl
  | pass i outcome => exact hanswering rfl rfl
  | enqueue i => exact hanswering rfl rfl
  | retire i => exact hanswering rfl rfl

/-- **Every run keeps the requests with their session and answers them once.** -/
lemma kept_run (h : Kept d v x.serving.session x.serving.requests R E A)
    (hw : x.writer.Heeds x.serving.session) (ms : List Move) :
    Kept d v (x.run d ms).serving.session (x.run d ms).serving.requests
      (R ++ x.history d received ms) (E ++ x.history d retired ms)
      (A ++ x.history d (sent d) ms) := by
  induction ms generalizing x R E A with
  | nil => simpa [history, run] using h
  | cons m ms ih =>
    have hms := ih (kept_next h hw m) (heeds_next hw d m)
    simpa only [history, run, List.foldl_cons, List.append_assoc] using hms

/-! ## The main theorem -/

/-- A session of a server right after its version has been settled. -/
structure IsNew (x : ServedSession) (v : ProtocolVersion) : Prop where
  version : x.serving.session.version = some v
  outstanding : x.serving.session.outstanding = 0
  reader : x.serving.session.queueOpen = true
  requests : x.serving.requests = []
  writer : x.writer.stage = .polling

lemma IsNew.kept (hx : x.IsNew v) (d : Dispatcher) :
    Kept d v x.serving.session x.serving.requests [] [] [] := by
  rw [hx.requests]
  exact ⟨hx.version, hx.outstanding, Or.inl hx.reader, .nil, by simp, fun _ => ⟨[], .nil, .nil⟩⟩

/-- A session that has been opened after its handshake is new in this sense. -/
lemma isNew_openSession {s : Session} (hversion : s.version = none) (hcount : s.outstanding = 0)
    (hreader : s.queueOpen = true) (hello : Hello) (v : ProtocolVersion) :
    IsNew { serving := { session := Server.openSession s hello v } } v := by
  have hset : (s.perform (.setVersion v)).1 = { s with version := some v } := by
    simp [Session.perform, Session.setVersion, Session.settle, hversion]
  have hpasses := Session.Passes.perform ((s.perform (.setVersion v)).1.setPeer hello.clientId)
    (.moveTo .active)
  refine ⟨hpasses.version v ?_, hpasses.outstanding.trans ?_, ?_, rfl, rfl⟩
  · rw [hset]
    rfl
  · rw [hset]
    exact hcount
  · show ((((s.perform (.setVersion v)).1.setPeer hello.clientId).perform _).1).queueOpen = true
    rw [Session.queueOpen_perform, hset]
    exact hreader

/-- **One answer for each request**: at every point of a run, the requests that have been received
are those whose tasks have ended and those that the session counts, no request is taken off a
count of zero, and the tasks leave the state of the session alone; and as long as the session is
not over, the tasks that have ended, and those that are about to, have put exactly one answer each
into the queue. -/
theorem one_answer_per_request (d : Dispatcher) (hx : x.IsNew v) (ms : List Move)
    {y : ServedSession} (hy : x.run d ms = y) :
    (x.history d received ms).Perm (x.history d retired ms ++ requestsOf y.serving.requests) ∧
      y.serving.session.outstanding = (requestsOf y.serving.requests).length ∧
      (∀ i, (y.next d (.retire i)).serving.session.outstanding + (y.retired (.retire i)).length =
        y.serving.session.outstanding) ∧
      (∀ m : Move, m.isAnswering = true →
        (y.next d m).serving.session.state = y.serving.session.state) ∧
      (y.serving.session.state ≠ .disconnected →
        ∃ done, done.Perm (x.history d retired ms ++ answeredOf y.serving.requests) ∧
          List.Forall₂ (d.Answers v) done (x.history d (sent d) ms)) := by
  have hheeds : x.writer.Heeds x.serving.session := by
    intro hstop
    rw [Writer.isStopping, hx.writer] at hstop
    cases hstop
  have h := kept_run (hx.kept d) hheeds ms
  simp only [List.nil_append, hy] at h
  refine ⟨h.received, ?_, fun i => ?_, fun m hm => y.state_next_of_isAnswering hm, h.answered⟩
  · rw [requestsOf, List.length_map, h.outstanding]
  · -- the invariant before and after the step tells both counts
    have hnext : Kept d v _ _ _ _ _ := kept_retire h i
    have hbefore := h.received.length_eq
    have hafter := hnext.received.length_eq
    have hnone : y.received (.retire i) = [] := rfl
    simp only [hnone, List.append_nil, List.length_append, requestsOf, List.length_map]
      at hbefore hafter
    rw [hnext.outstanding, h.outstanding]
    omega

/-- Two requests under one number, one of which cannot be read and one whose handler breaks down,
answered in the other order. -/
theorem one_answer_per_request_crossed :
    let key : OperationKey := ⟨"S", "1", "f"⟩
    let d : Dispatcher := { operations :=
      { registry := {}, registered := [{ decl := { key }, handler := fun _ => .brokeDown }] } }
    let s : Session :=
      { id := "s", role := .server, remote := .v4 127 0 0 1 9000, state := .negotiating }
    let hello : Hello := { range := default, clientId := "c" }
    let x : ServedSession := { serving := { session := Server.openSession s hello .oldest } }
    let garbled : Frame := .make .oldest .request 7 [255]
    let request : Frame := .make .oldest .request 7
      ((Request.encode .oldest { key, context := {}, arguments := {} }).toOption.getD [])
    let moves : List Move := [.receive ⟨0⟩ (.frame garbled), .receive ⟨0⟩ (.frame request),
      .begin 1, .begin 0, .pass 1 .brokeDown, .pass 0 .brokeDown, .enqueue 1, .write ⟨1⟩ .whole,
      .enqueue 0, .retire 0]
    let y := x.run d moves
    x.IsNew .oldest ∧ y.serving.session.state = .active ∧ y.serving.session.outstanding = 1 ∧
      ((x.history d (sent d) moves).map fun f => (f.type, f.correlation)) =
        [(.responseFault, 7), (.responseFault, 7)] ∧
      ∃ done, done.Perm (garbled :: [request]) ∧
        List.Forall₂ (d.Answers .oldest) done (x.history d (sent d) moves) := by
  intro key d s hello x garbled request moves y
  have hx : x.IsNew .oldest := isNew_openSession rfl rfl rfl hello .oldest
  have hstate : y.serving.session.state = .active := by decide +kernel
  obtain ⟨-, -, -, -, hanswered⟩ := one_answer_per_request d hx moves (y := y) rfl
  obtain ⟨done, hdone, hanswers⟩ := hanswered (by rw [hstate]; decide)
  have hended : x.history d retired moves ++ answeredOf y.serving.requests =
      garbled :: [request] := by
    decide +kernel
  rw [hended] at hdone
  exact ⟨hx, hstate, by decide +kernel, by decide +kernel, done, hdone, hanswers⟩

end ServedSession

end RemoteCall
