/-
# What a request is answered with

The answer to a request is a result or a fault under the number of the request, whatever the bytes
of the request are and however its handler ends.  A request that is rejected before its handler
runs is answered with a fault of one of four codes: its bytes cannot be read, its operation is not
known, or its arguments do not fit.
-/
import Mathlib.Tactic.Lemma
import RemoteCall.Proofs.Session
import RemoteCall.Server.Dispatch

namespace RemoteCall

/-- The codes of the faults for requests that are rejected before their handler runs. -/
def FaultCode.rejections : List FaultCode :=
  [client, noSuchOperation, validation, enumDeserialisation]

lemma Request.toFault_of_decode {v : ProtocolVersion} {payload : List UInt8} {e : Failure}
    (h : decode v payload = .error e) : e.toFault.code = .client := by
  rw [decode] at h
  split at h <;> cases h
  rfl

lemma Operations.toFault_of_lookUp {o : Operations} {key : OperationKey} {e : Failure}
    (h : o.lookUp key = .error e) : e.toFault.code = .noSuchOperation := by
  rw [lookUp] at h
  split at h <;> cases h
  rfl

lemma Projection.Misfit.toFault_mem (m : Misfit) :
    m.toFailure.toFault.code ∈ FaultCode.rejections := by
  cases m <;> simp [toFailure, Failure.toFault, FaultCode.rejections]

lemma Request.toFault_of_bind {registry : Registry} {options : DecodeOptions}
    {params : List FieldDecl} {r : Request} {e : Failure}
    (h : r.bind registry options params = .error e) : e.toFault.code ∈ FaultCode.rejections := by
  rw [bind] at h
  split at h <;> cases h
  exact Projection.Misfit.toFault_mem _

namespace Dispatcher

variable {d : Dispatcher} {s s' : Session} {v : ProtocolVersion} {payload : List UInt8}

/-- **A request is rejected for one of four reasons.** -/
lemma toFault_of_prepare {e : Failure} (h : d.prepare s v payload = .error e) :
    e.toFault.code ∈ FaultCode.rejections := by
  rcases bind_eq_error.mp h with hdecode | ⟨r, -, h⟩
  · simp [Request.toFault_of_decode hdecode, FaultCode.rejections]
  rcases bind_eq_error.mp h with hlookup | ⟨operation, -, h⟩
  · simp [Operations.toFault_of_lookUp hlookup, FaultCode.rejections]
  rcases bind_eq_error.mp h with hbind | ⟨arguments, -, h⟩
  · exact Request.toFault_of_bind hbind
  · cases h

/-- Whether a request is rejected, and why, does not depend on the session. -/
lemma prepare_congr (s s' : Session) :
    d.prepare s v payload = (d.prepare s' v payload).map fun p =>
      (p.1, { p.2 with session := s.id, remote := s.remote }) := by
  simp only [prepare, bind, Except.bind, pure, Except.pure]
  rcases Request.decode v payload with e | r
  · rfl
  rcases hl : d.operations.lookUp r.key with e | operation
  · simp [hl, Except.map]
  rcases hb : r.bind d.operations.registry d.options operation.decl.params with e | arguments
  · simp [hl, hb, Except.map]
  · simp [hl, hb, Except.map]

/-- A frame is an answer to a request: it has the version and the number of the request, and is a
result or a fault; if the request is rejected it is a fault for one of the four reasons, else it is
the frame of some end that a handler may come to.  Which end that is, is left to the handler. -/
structure Answers (d : Dispatcher) (v : ProtocolVersion) (request answer : Frame) : Prop where
  version : answer.version = v
  correlation : answer.correlation = request.correlation
  type : answer.type = .responseOk ∨ answer.type = .responseFault
  rejected : ∀ s e, d.prepare s v request.payload = .error e →
    answer.type = .responseFault ∧
      ∃ f : Fault, f.code ∈ FaultCode.rejections ∧ answer.payload = f.encode
  handled : ∀ s p, d.prepare s v request.payload = .ok p →
    ∃ outcome : HandlerOutcome, answer = answerFrame v request.correlation outcome.result

lemma answerFrame_cases (v : ProtocolVersion) (c : UInt64) (r : Except Fault Returned) :
    ∃ type payload, answerFrame v c r = .make v type c payload ∧
      (type = .responseOk ∨ type = .responseFault) := by
  rcases r with f | r
  · exact ⟨.responseFault, _, rfl, Or.inr rfl⟩
  · rcases h : r.encode with e | payload
    · exact ⟨.responseFault, e.toFault.encode, by simp [answerFrame, faultFrame, h], Or.inr rfl⟩
    · exact ⟨.responseOk, payload, by simp [answerFrame, h], Or.inl rfl⟩

/-- **Every request has an answer**, however its handler ends. -/
lemma answers_answer (d : Dispatcher) (s : Session) (v : ProtocolVersion) (request : Frame)
    (outcome : HandlerOutcome) : d.Answers v request (d.answer s v request outcome) := by
  obtain ⟨r, hr⟩ : ∃ r, d.answer s v request outcome = answerFrame v request.correlation r :=
    ⟨_, rfl⟩
  obtain ⟨type, payload, hframe, htype⟩ := answerFrame_cases v request.correlation r
  have hcorrelated : type.isCorrelated = true := by
    rcases htype with rfl | rfl <;> rfl
  refine ⟨by rw [hr, hframe, Frame.make], by simp [hr, hframe, Frame.make, hcorrelated],
    by simpa [hr, hframe, Frame.make] using htype, fun s' e he => ?_, fun s' p hp => ?_⟩
  · have hs : d.prepare s v request.payload = .error e := by
      rw [prepare_congr s s', he]
      rfl
    rw [answer, hs]
    exact ⟨rfl, e.toFault, toFault_of_prepare he, rfl⟩
  · refine ⟨outcome, ?_⟩
    rw [answer, prepare_congr s s', hp]
    rfl

end Dispatcher

/-! ## The steps of a task -/

namespace Serving

lemma begin_cases (v : Serving) (i : Nat) :
    v.begin i = v ∨
      ∃ request, v.requests[i]? = some { request, stage := .waiting } ∧
        v.begin i = { v with requests := v.requests.set i { request, stage := .running } } := by
  rcases h : v.requests[i]? with _ | ⟨request, _ | _ | f | _⟩
  case some.waiting => exact Or.inr ⟨request, rfl, by simp only [begin, h]⟩
  all_goals
    left
    simp only [begin, h]

lemma pass_cases (d : Dispatcher) (v : Serving) (i : Nat) (outcome : HandlerOutcome) :
    v.pass d i outcome = v ∨
      ∃ request, v.requests[i]? = some { request, stage := .running } ∧
        v.pass d i outcome = { v with
          requests := v.requests.set i { request, stage := v.admission d request outcome } } := by
  rcases h : v.requests[i]? with _ | ⟨request, _ | _ | f | _⟩
  case some.running => exact Or.inr ⟨request, rfl, by simp only [pass, h]⟩
  all_goals
    left
    simp only [pass, h]

/-- An answer is let pass as long as the session is not over. -/
lemma admission_cases (d : Dispatcher) {v : Serving} {version : ProtocolVersion}
    (hv : v.session.version = some version) (request : Frame) (outcome : HandlerOutcome) :
    (∃ f, d.Answers version request f ∧ v.admission d request outcome = .admitted f) ∨
      v.session.state = .disconnected ∧ v.admission d request outcome = .answered := by
  by_cases hstate : v.session.state = .disconnected
  · right
    rcases hpass : v.session.letPass with e | _
    · exact ⟨hstate, by simp only [admission, hv, hpass]⟩
    · exact absurd hstate (Session.letPass_eq_ok.mp hpass)
  · left
    refine ⟨_, d.answers_answer v.session version request outcome, ?_⟩
    simp only [admission, hv, Session.letPass_eq_ok.mpr hstate]

lemma enqueue_cases (v : Serving) (i : Nat) :
    v.enqueue i = v ∨
      ∃ request f, v.requests[i]? = some { request, stage := .admitted f } ∧
        (v.enqueue i).requests = v.requests.set i { request, stage := .answered } ∧
        ((v.session.queueOpen = true ∧
            (v.enqueue i).session = { v.session with queue := v.session.queue ++ [f] }) ∨
          v.session.queueOpen = false ∧ (v.enqueue i).session = v.session) := by
  rcases h : v.requests[i]? with _ | ⟨request, _ | _ | f | _⟩
  case some.admitted =>
    refine Or.inr ⟨request, f, rfl, by simp only [enqueue, h], ?_⟩
    by_cases hopen : v.session.queueOpen = true <;> simp [enqueue, h, Session.push, hopen]
  all_goals
    left
    simp only [enqueue, h]

lemma retire_cases (v : Serving) (i : Nat) :
    (v.retire i = v ∧ ∀ request, v.requests[i]? ≠ some { request, stage := .answered }) ∨
      ∃ request, v.requests[i]? = some { request, stage := .answered } ∧
        v.retire i = { session := v.session.countDown, requests := v.requests.eraseIdx i } := by
  rcases h : v.requests[i]? with _ | ⟨request, _ | _ | f | _⟩
  case some.answered => exact Or.inr ⟨request, rfl, by simp only [retire, h]⟩
  all_goals
    left
    simp [retire, h]

/-- A reader takes a request, or changes the session in a way that the tasks need not know of. -/
lemma receive_cases (v : Serving) (now : Duration) (incoming : Incoming) :
    (∃ f s, incoming = .frame f ∧ f.type = .request ∧ v.session.Passes s ∧
        (v.receive now incoming).2 = { v with session := s }.arrive f) ∨
      (∀ f, incoming = .frame f → f.type ≠ .request) ∧
        ∃ s, v.session.Passes s ∧ (v.receive now incoming).2 = { v with session := s } := by
  cases incoming with
  | frame f =>
    have hread : v.session.Passes (v.session.recordRead now f.size) := .of_eq ⟨rfl, rfl, rfl, rfl⟩
    rcases hf : f.type
    case request =>
      exact Or.inl ⟨f, _, rfl, hf, hread, by simp only [receive, hf]⟩
    all_goals
      refine Or.inr ⟨fun g hg => ?_, ?_⟩
      · cases hg
        simp [hf]
      simp only [receive, hf]
      first
        | exact ⟨_, hread, rfl⟩
        | exact ⟨_, hread.trans (.perform _ _), rfl⟩
        | exact ⟨_, hread.trans (.closed _), rfl⟩
  | _ =>
    refine Or.inr ⟨fun f hf => ?_, _, .closed v.session, rfl⟩
    cases hf

end Serving

end RemoteCall
