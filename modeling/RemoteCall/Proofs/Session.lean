/-
# What calls and the writer do to a session

A call leaves a session as it is, moves it to another state, settles its version or puts a frame
into its queue.  The writer takes frames out of the queue; it stops, and the queue loses its
reader, only when the session is over.
-/
import RemoteCall.Proofs.Steps
import RemoteCall.Session.KeepAlive
import RemoteCall.Session.Writer

namespace RemoteCall

namespace Session

variable {s t : Session} {f : Frame}

lemma push_eq_ok :
    s.push f = .ok t ↔ s.queueOpen = true ∧ t = { s with queue := s.queue ++ [f] } := by
  by_cases h : s.queueOpen = true <;> simp [push, h, eq_comm]

lemma letPass_eq_ok : s.letPass = .ok () ↔ s.state ≠ .disconnected := by
  rw [ne_eq, ← SessionState.isTerminal_iff]
  by_cases h : s.state.isTerminal = true <;> simp [letPass, h]

lemma sendFrame_eq_ok :
    s.sendFrame f = .ok t ↔
      s.state ≠ .disconnected ∧ s.queueOpen = true ∧ t = { s with queue := s.queue ++ [f] } := by
  rw [sendFrame, bind_eq_ok, ← letPass_eq_ok, ← push_eq_ok]
  exact ⟨fun ⟨_, hpass, hpush⟩ => ⟨hpass, hpush⟩, fun ⟨hpass, hpush⟩ => ⟨(), hpass, hpush⟩⟩

lemma perform_sendFrame_cases (s : Session) (f : Frame) :
    (s.perform (.sendFrame f)).1 = s ∨
      s.state ≠ .disconnected ∧ s.queueOpen = true ∧
        (s.perform (.sendFrame f)).1 = { s with queue := s.queue ++ [f] } := by
  rcases h : s.sendFrame f with e | t
  · left
    simp [perform, settle, h]
  · obtain ⟨hstate, hopen, ht⟩ := sendFrame_eq_ok.mp h
    exact Or.inr ⟨hstate, hopen, by simp [perform, settle, h, ht]⟩

/-- What a call does to a session. -/
lemma perform_cases (s : Session) (c : SessionCall) :
    (s.perform c).1 = s ∨
      (∃ next, s.state.mayBecome next = true ∧ (s.perform c).1 = { s with state := next }) ∨
      (∃ v, s.version = none ∧ (s.perform c).1 = { s with version := some v }) ∨
      ∃ f, s.state ≠ .disconnected ∧ s.queueOpen = true ∧
        (s.perform c).1 = { s with queue := s.queue ++ [f] } := by
  have hsend : ∀ f, (s.perform (.sendFrame f)).1 = s ∨ ∃ f', s.state ≠ .disconnected ∧
      s.queueOpen = true ∧ (s.perform (.sendFrame f)).1 = { s with queue := s.queue ++ [f'] } :=
    fun f => (s.perform_sendFrame_cases f).imp_right fun h => ⟨f, h⟩
  cases c with
  | moveTo next =>
    by_cases h : s.state.mayBecome next = true
    · exact Or.inr (Or.inl ⟨next, h, by simp [perform, moveTo, h]⟩)
    · left
      simp [perform, moveTo, h]
  | forceDisconnect =>
    by_cases h : s.state.isTerminal = true
    · left
      simp [perform, forceDisconnect, h]
    · have hmay : s.state.mayBecome .disconnected = true := by
        revert h
        cases s.state <;> decide
      exact Or.inr (Or.inl ⟨_, hmay, by simp [perform, forceDisconnect, h]⟩)
  | setVersion v =>
    rcases Option.eq_none_or_eq_some s.version with h | ⟨w, h⟩
    · exact Or.inr (Or.inr (Or.inl ⟨v, h, by simp [perform, setVersion, settle, h]⟩))
    · left
      simp [perform, setVersion, settle, h]
  | sendFrame f => exact (hsend f).imp_right fun h => Or.inr (Or.inr h)
  | sendControl type =>
    rcases Option.eq_none_or_eq_some s.version with h | ⟨v, h⟩
    · left
      simp [perform, sendControl, settle, h]
    · have hcontrol : s.perform (.sendControl type) = s.perform (.sendFrame (.control v type)) := by
        simp [perform, sendControl, h]
      rw [hcontrol]
      exact (hsend _).imp_right fun h => Or.inr (Or.inr h)

/-- Only the calls of a client touch the counters of its sessions. -/
lemma counters_perform (s : Session) (c : SessionCall) :
    (s.perform c).1.nextCorrelation = s.nextCorrelation ∧
      (s.perform c).1.outstanding = s.outstanding := by
  rcases s.perform_cases c with h | ⟨_, -, h⟩ | ⟨_, -, h⟩ | ⟨_, -, -, h⟩ <;> rw [h] <;>
    exact ⟨rfl, rfl⟩

lemma queueOpen_perform (s : Session) (c : SessionCall) :
    (s.perform c).1.queueOpen = s.queueOpen := by
  rcases s.perform_cases c with h | ⟨_, -, h⟩ | ⟨_, -, h⟩ | ⟨_, -, -, h⟩ <;> rw [h]

/-- A session that is over stays so, whatever it is used for. -/
lemma state_perform_of_disconnected (hs : s.state = .disconnected) (c : SessionCall) :
    (s.perform c).1.state = .disconnected := by
  rcases s.perform_cases c with h | ⟨next, hmay, -⟩ | ⟨_, -, h⟩ | ⟨_, -, -, h⟩
  · rw [h, hs]
  · rw [SessionState.mayBecome_of_isTerminal (by rw [hs]; rfl)] at hmay
    cases hmay
  · rw [h, hs]
  · rw [h, hs]

/-- Calls put frames at the end of the queue. -/
lemma queue_prefix_perform (s : Session) (c : SessionCall) :
    s.queue <+: (s.perform c).1.queue := by
  rcases s.perform_cases c with h | ⟨_, -, h⟩ | ⟨_, -, h⟩ | ⟨_, -, -, h⟩ <;>
    simp only [h, List.prefix_rfl, List.prefix_append]

@[simp] lemma queue_closed (s : Session) : s.closed.queue = s.queue := by
  rw [closed, forceDisconnect]
  split <;> rfl

lemma state_closed (s : Session) : s.closed.state = .disconnected := by
  by_cases h : s.state.isTerminal = true
  · simpa [closed, forceDisconnect, h] using (SessionState.isTerminal_iff s.state).mp h
  · simp [closed, forceDisconnect, h]

end Session

/-! ## Changes that other tasks make -/

/-- A change of a session that the tasks of its requests need not know of. -/
structure Session.Passes (s t : Session) : Prop where
  version : ∀ v, s.version = some v → t.version = some v
  outstanding : t.outstanding = s.outstanding
  stays : s.state = .disconnected → t.state = .disconnected
  reader : t.queueOpen = s.queueOpen ∨ t.state = .disconnected

namespace Session.Passes

variable {s t u : Session}

lemma refl (s : Session) : s.Passes s := ⟨fun _ h => h, rfl, fun h => h, Or.inl rfl⟩

lemma trans (h : s.Passes t) (h' : t.Passes u) : s.Passes u := by
  refine ⟨fun v hv => h'.version v (h.version v hv), h'.outstanding.trans h.outstanding,
    fun hs => h'.stays (h.stays hs), ?_⟩
  rcases h'.reader with hopen | hstate
  · exact h.reader.imp hopen.trans h'.stays
  · exact Or.inr hstate

lemma perform (s : Session) (c : SessionCall) : s.Passes (s.perform c).1 := by
  refine ⟨fun v hv => ?_, (s.counters_perform c).2, fun h => state_perform_of_disconnected h c,
    Or.inl (s.queueOpen_perform c)⟩
  rcases s.perform_cases c with h | ⟨_, -, h⟩ | ⟨w, hnone, -⟩ | ⟨_, -, -, h⟩
  · rw [h, hv]
  · rw [h, hv]
  · cases hnone.symm.trans hv
  · rw [h, hv]

lemma closed (s : Session) : s.Passes s.closed := perform s .forceDisconnect

lemma of_eq (h : s.version = t.version ∧ s.outstanding = t.outstanding ∧ s.state = t.state ∧
    s.queueOpen = t.queueOpen) : s.Passes t := by
  obtain ⟨hversion, hcount, hstate, hopen⟩ := h
  exact ⟨fun v hv => hversion.symm.trans hv, hcount.symm, fun hs => hstate.symm.trans hs,
    Or.inl hopen.symm⟩

end Session.Passes

namespace Writer

variable {w : Writer} {s : Session}

/-- The writer has seen that the session is over. -/
def isStopping (w : Writer) : Bool :=
  match w.stage with
  | .polling | .checking | .writing _ => false
  | _ => true

/-- The writer stops only when the session is over. -/
def Heeds (w : Writer) (s : Session) : Prop := w.isStopping = true → s.state = .disconnected

lemma Heeds.passes {t : Session} (h : w.Heeds s) (hs : s.Passes t) : w.Heeds t :=
  fun hw => hs.stays (h hw)

lemma writeOne_passes (w : Writer) (now : Duration) (s : Session) (f : Frame)
    (outcome : WriteOutcome) (next : WriterStage) :
    s.Passes (w.writeOne now s f outcome next).2 ∧
      ((w.writeOne now s f outcome next).1.stage = next ∨
        (w.writeOne now s f outcome next).2.state = .disconnected) := by
  rcases hf : f.encode with e | bytes
  · simp only [writeOne, hf]
    exact ⟨.closed s, Or.inr s.state_closed⟩
  · cases outcome <;> simp only [writeOne, hf]
    · exact ⟨.of_eq ⟨rfl, rfl, rfl, rfl⟩, Or.inl trivial⟩
    · exact ⟨.closed s, Or.inr s.state_closed⟩

lemma step_writing {f : Frame} (hw : w.stage = .writing f) (now : Duration)
    (outcome : WriteOutcome) :
    s.Passes (w.step now s outcome).2 ∧
      ((w.step now s outcome).1.stage = .polling ∨
        (w.step now s outcome).2.state = .disconnected) := by
  by_cases hf : f.type = .disconnect
  · have hparted := (w.writeOne_passes now s f outcome (.shutting .parted)).1
    simp only [step, hw, hf]
    exact ⟨hparted.trans (.closed _), Or.inr (Session.state_closed _)⟩
  · have hstep : w.step now s outcome = w.writeOne now s f outcome .polling := by
      simp only [step, hw]
    rw [hstep]
    exact w.writeOne_passes now s f outcome .polling

/-- **A step of the writer** is a change that no other task need know of, and the writer still
stops only when the session is over. -/
lemma step_passes (h : w.Heeds s) (now : Duration) (outcome : WriteOutcome) :
    s.Passes (w.step now s outcome).2 ∧
      (w.step now s outcome).1.Heeds (w.step now s outcome).2 := by
  rcases hw : w.stage with _ | _ | f | _ | f | why | why
  · rcases hq : s.queue with _ | ⟨f, rest⟩ <;> simp only [step, hw, hq, goTo]
    · exact ⟨.refl s, fun hstop => by cases hstop⟩
    · exact ⟨.of_eq ⟨rfl, rfl, rfl, rfl⟩, fun hstop => by cases hstop⟩
  · simp only [step, hw, goTo]
    refine ⟨.refl s, fun hstop => ?_⟩
    by_cases hs : s.state.isTerminal = true
    · exact (SessionState.isTerminal_iff s.state).mp hs
    · rw [isStopping, if_neg hs] at hstop
      cases hstop
  · obtain ⟨hpasses, hstage | hover⟩ := step_writing (s := s) hw now outcome
    · refine ⟨hpasses, fun hstop => ?_⟩
      rw [isStopping, hstage] at hstop
      cases hstop
    · exact ⟨hpasses, fun _ => hover⟩
  -- in the other stages the writer has seen that the session is over
  all_goals
    have hover : s.state = .disconnected := h (by simp [isStopping, hw])
  · rcases hq : s.queue with _ | ⟨f, rest⟩ <;> simp only [step, hw, hq, goTo]
    · exact ⟨.refl s, fun _ => hover⟩
    · exact ⟨.of_eq ⟨rfl, rfl, rfl, rfl⟩, fun _ => hover⟩
  · simp only [step, hw]
    have hpasses := (w.writeOne_passes now s f outcome .emptying).1
    exact ⟨hpasses, fun _ => hpasses.stays hover⟩
  · simp only [step, hw]
    exact ⟨⟨fun _ hv => hv, rfl, fun h => h, Or.inr hover⟩, fun _ => hover⟩
  · simp only [step, hw]
    exact ⟨.refl s, fun _ => hover⟩

/-! ### The queue -/

@[simp] lemma queue_writeOne (w : Writer) (now : Duration) (s : Session) (f : Frame)
    (outcome : WriteOutcome) (next : WriterStage) :
    (w.writeOne now s f outcome next).2.queue = s.queue := by
  rcases hf : f.encode with e | bytes
  · simp only [writeOne, hf, s.queue_closed]
  · cases outcome <;> simp only [writeOne, hf, s.queue_closed]
    rfl

/-- The writer takes frames off the front of the queue. -/
lemma queue_suffix_step (w : Writer) (now : Duration) (s : Session)
    (outcome : WriteOutcome) : (w.step now s outcome).2.queue <:+ s.queue := by
  rcases hw : w.stage with _ | _ | f | _ | f | why | why
  · rcases hq : s.queue with _ | ⟨f, rest⟩ <;> simp only [step, hw, hq]
    · exact List.suffix_rfl
    · exact List.suffix_cons f rest
  · simp only [step, hw]
    exact List.suffix_rfl
  · by_cases hf : f.type = .disconnect
    · simp only [step, hw, hf, Session.queue_closed, queue_writeOne]
      exact List.suffix_rfl
    · simp only [step, hw, queue_writeOne]
      exact List.suffix_rfl
  · rcases hq : s.queue with _ | ⟨f, rest⟩ <;> simp only [step, hw, hq]
    · exact List.suffix_rfl
    · exact List.suffix_cons f rest
  · simp only [step, hw, queue_writeOne]
    exact List.suffix_rfl
  · simp only [step, hw, Session.dropQueue]
    exact List.nil_suffix
  · simp only [step, hw]
    exact List.suffix_rfl

end Writer

/-! ## The way forward

What the tasks of an open session do to it, in two parts: what they take back, which is nothing,
and whether they may have suspended it. -/

namespace Session

variable {s t u : Session}

lemma rank_perform (s : Session) (c : SessionCall) :
    s.state.rank ≤ (s.perform c).1.state.rank := by
  rcases s.perform_cases c with h | ⟨next, hmay, h⟩ | ⟨_, -, h⟩ | ⟨_, -, -, h⟩
  · exact Nat.le_of_eq (by rw [h])
  · rw [h]
    exact Nat.le_of_lt (SessionState.rank_lt_of_mayBecome hmay)
  · exact Nat.le_of_eq (by rw [h])
  · exact Nat.le_of_eq (by rw [h])

lemma state_of_rank (h : 4 ≤ s.state.rank) : s.state = .disconnected := by
  revert h
  cases s.state <;> decide

/-- Requests and their answers flow on the session. -/
def IsLive (s : Session) : Prop := s.state = .active ∨ s.state = .suspending

/-- The state is as it was, unless the session has ended. -/
def KeepsState (s t : Session) : Prop := t.state = s.state ∨ t.state = .disconnected

lemma KeepsState.rank_le (h : s.KeepsState t) : s.state.rank ≤ t.state.rank := by
  rcases h with h | h
  · exact Nat.le_of_eq (by rw [h])
  · rw [h]
    cases s.state <;> decide

lemma KeepsState.closed (s : Session) : s.KeepsState s.closed := Or.inr s.state_closed

lemma sendControl_eq_ok {type : MessageType} :
    s.sendControl type = .ok t ↔ ∃ v, s.version = some v ∧ s.state ≠ .disconnected ∧
      s.queueOpen = true ∧ t = { s with queue := s.queue ++ [.control v type] } := by
  rcases hv : s.version with _ | v
  · simp [sendControl, hv]
  · simp only [sendControl, hv, sendFrame_eq_ok]
    simp

lemma keepsState_sendControl {type : MessageType} (h : s.sendControl type = .ok t) :
    s.KeepsState t := by
  obtain ⟨v, -, -, -, rfl⟩ := sendControl_eq_ok.mp h
  exact Or.inl rfl

/-- A change of an open session takes back neither its version nor its state, and its queue loses
its reader only when the session is over. -/
structure Advances (s t : Session) : Prop where
  version : ∀ v, s.version = some v → t.version = some v
  rank : s.state.rank ≤ t.state.rank
  reader : t.queueOpen = s.queueOpen ∨ t.state = .disconnected

namespace Advances

lemma of_passes (h : s.Passes t) (hrank : s.state.rank ≤ t.state.rank) : s.Advances t :=
  ⟨h.version, hrank, h.reader⟩

lemma refl (s : Session) : s.Advances s := of_passes (.refl s) (Nat.le_refl _)

lemma stays (h : s.Advances t) (hs : s.state = .disconnected) : t.state = .disconnected := by
  have hrank := h.rank
  rw [hs] at hrank
  exact state_of_rank hrank

lemma trans (h : s.Advances t) (h' : t.Advances u) : s.Advances u := by
  refine ⟨fun v hv => h'.version v (h.version v hv), Nat.le_trans h.rank h'.rank, ?_⟩
  rcases h'.reader with hopen | hover
  · exact h.reader.imp hopen.trans h'.stays
  · exact Or.inr hover

lemma perform (s : Session) (c : SessionCall) : s.Advances (s.perform c).1 :=
  of_passes (.perform s c) (s.rank_perform c)

lemma closed (s : Session) : s.Advances s.closed := perform s .forceDisconnect

lemma sendControl {type : MessageType} (h : s.sendControl type = .ok t) : s.Advances t := by
  obtain ⟨v, -, -, -, rfl⟩ := sendControl_eq_ok.mp h
  exact ⟨fun _ h => h, Nat.le_refl _, Or.inl rfl⟩

lemma recordRead (s : Session) (now : Duration) (size : Nat) : s.Advances (s.recordRead now size) :=
  ⟨fun _ h => h, Nat.le_refl _, Or.inl rfl⟩

end Advances

/-- A session after the handshake: a version is settled, and as long as the session is open
somebody reads its queue. -/
structure Ready (s : Session) : Prop where
  rank : 2 ≤ s.state.rank
  version : s.version ≠ none
  reader : s.queueOpen = true ∨ s.state = .disconnected

lemma Ready.advances (h : s.Ready) (ht : s.Advances t) : t.Ready := by
  refine ⟨Nat.le_trans h.rank ht.rank, ?_, ?_⟩
  · obtain ⟨v, hv⟩ := Option.ne_none_iff_exists'.mp h.version
    rw [ht.version v hv]
    exact Option.some_ne_none v
  · rcases ht.reader with hopen | hover
    · rw [hopen]
      exact h.reader.imp_right ht.stays
    · exact Or.inr hover

/-- As long as it is open, a session that is ready takes frames without a payload. -/
lemma Ready.sendControl (h : s.Ready) (hs : s.state ≠ .disconnected) (type : MessageType) :
    ∃ t, s.sendControl type = .ok t := by
  obtain ⟨v, hv⟩ := Option.ne_none_iff_exists'.mp h.version
  exact ⟨_, sendControl_eq_ok.mpr ⟨v, hv, hs, h.reader.resolve_right hs, rfl⟩⟩

end Session

namespace Writer

variable {w : Writer} {s : Session}

lemma keepsState_writeOne (w : Writer) (now : Duration) (s : Session) (f : Frame)
    (outcome : WriteOutcome) (next : WriterStage) :
    s.KeepsState (w.writeOne now s f outcome next).2 := by
  rcases hf : f.encode with e | bytes
  · simp only [writeOne, hf]
    exact .closed s
  · cases outcome <;> simp only [writeOne, hf]
    · exact Or.inl rfl
    · exact .closed s

lemma keepsState_step (w : Writer) (now : Duration) (s : Session) (outcome : WriteOutcome) :
    s.KeepsState (w.step now s outcome).2 := by
  rcases hw : w.stage with _ | _ | f | _ | f | why | why
  · rcases hq : s.queue with _ | ⟨f, rest⟩ <;> simp only [step, hw, hq] <;> exact Or.inl rfl
  · simp only [step, hw]
    exact Or.inl rfl
  · by_cases hf : f.type = .disconnect
    · simp only [step, hw, hf]
      exact Or.inr (Session.state_closed _)
    · have hstep : w.step now s outcome = w.writeOne now s f outcome .polling := by
        simp only [step, hw]
      rw [hstep]
      exact w.keepsState_writeOne now s f outcome .polling
  · rcases hq : s.queue with _ | ⟨f, rest⟩ <;> simp only [step, hw, hq] <;> exact Or.inl rfl
  · simp only [step, hw]
    exact w.keepsState_writeOne now s f outcome .emptying
  · simp only [step, hw]
    exact Or.inl rfl
  · simp only [step, hw]
    exact Or.inl rfl

end Writer

namespace KeepAlive

/-- The three outcomes of a look at a session. -/
lemma look_cases (k : KeepAlive) (now : Duration) (s : Session) :
    k.look now s = s ∨ watches s.state = true ∧
      (k.look now s = s.closed ∨ ∃ t, s.sendControl .heartbeat = .ok t ∧ k.look now s = t) := by
  by_cases hw : watches s.state = true
  · by_cases hread : k.timeout.nanos ≤ (s.readIdle now).nanos
    · exact Or.inr ⟨hw, Or.inl (by simp [look, hw, hread])⟩
    · by_cases hwrite : k.interval.nanos ≤ (s.writeIdle now).nanos
      · rcases hsend : s.sendControl .heartbeat with e | t
        · exact Or.inl (by simp [look, hw, hread, hwrite, hsend])
        · exact Or.inr ⟨hw, Or.inr ⟨t, rfl, by simp [look, hw, hread, hwrite, hsend]⟩⟩
      · exact Or.inl (by simp [look, hw, hread, hwrite])
  · exact Or.inl (by simp [look, hw])

end KeepAlive

end RemoteCall
