/-
# What a drain does to its session

A drain uses the session as other tasks do: each of its steps makes one call on it, or none.  It
sends DISCONNECT for one of two reasons, and the one that no request is under way is found nowhere
but at the count.
-/
import Mathlib.Tactic.ByContra
import Mathlib.Tactic.SplitIfs
import RemoteCall.Proofs.Session
import RemoteCall.Session.Drain

namespace RemoteCall.DrainStage

variable {p : DrainPolicy} {horizon now : Duration} {stage : DrainStage} {s : Session}

/-- A drain that is announced suspends its session, and goes on to look if the clock can tell the
end of its window. -/
lemma step_announced (p : DrainPolicy) (horizon now : Duration) (s : Session) :
    announced.step p horizon now s =
      ((now.later? p.window horizon).elim ended looking, (s.perform (.moveTo .suspending)).1) := by
  rcases h : s.moveTo .suspending with e | ⟨_, t⟩ <;> simp [step, Session.perform, h]

/-- A step of a drain uses the session as other tasks do. -/
lemma step_session_cases (p : DrainPolicy) (horizon now : Duration) (stage : DrainStage)
    (s : Session) :
    (stage.step p horizon now s).2 = s ∨ ∃ c, (stage.step p horizon now s).2 = (s.perform c).1 := by
  have hsend : ∀ type t, s.sendControl type = .ok t → t = (s.perform (.sendControl type)).1 := by
    intro type t h
    simp [Session.perform, Session.settle, h]
  cases stage with
  | starting =>
    by_cases ha : p.announces s = true
    · rcases h : s.sendControl .suspend with e | t
      · exact Or.inl (by simp [step, ha, h])
      · exact Or.inr ⟨.sendControl .suspend, by simp [step, ha, h, hsend _ _ h]⟩
    · exact Or.inl (by simp [step, ha])
  | announced => exact Or.inr ⟨.moveTo .suspending, by rw [step_announced]⟩
  | looking | resting | watching =>
    left
    simp only [step]
    split_ifs <;> rfl
  | parting quiet =>
    rcases h : s.sendControl .disconnect with e | t
    · exact Or.inr ⟨.forceDisconnect, by simp [step, h]; rfl⟩
    · exact Or.inr ⟨.sendControl .disconnect, by simp [step, h, hsend _ _ h]⟩
  | lingering limit =>
    by_cases hs : s.state.isTerminal = true
    · exact Or.inl (by simp [step, hs])
    · by_cases hl : limit.nanos ≤ now.nanos
      · exact Or.inr ⟨.forceDisconnect, by simp [step, hs, hl]; rfl⟩
      · exact Or.inl (by simp [step, hs, hl])
  | ended => exact Or.inl rfl

lemma step_passes (p : DrainPolicy) (horizon now : Duration) (stage : DrainStage) (s : Session) :
    s.Passes (stage.step p horizon now s).2 := by
  rcases stage.step_session_cases p horizon now s with h | ⟨c, h⟩ <;> rw [h]
  · exact .refl s
  · exact .perform s c

lemma queue_prefix_step (p : DrainPolicy) (horizon now : Duration) (stage : DrainStage)
    (s : Session) :
    s.queue <+: (stage.step p horizon now s).2.queue := by
  rcases stage.step_session_cases p horizon now s with h | ⟨c, h⟩
  · simp only [h, List.prefix_rfl]
  · exact h ▸ s.queue_prefix_perform c

/-- A drain parts in quiet only after it has looked at the count and found it at zero. -/
lemma of_step_eq_parting_true (h : (stage.step p horizon now s).1 = .parting true) :
    (∃ deadline, stage = .looking deadline) ∧ s.outstanding = 0 := by
  cases stage with
  | looking deadline =>
    refine ⟨⟨deadline, rfl⟩, ?_⟩
    by_contra hcount
    simp only [step, if_neg hcount] at h
    split_ifs at h
    cases h
  | starting =>
    simp only [step] at h
    split at h
    · split at h <;> cases h
    · cases h
  | announced =>
    rw [step_announced] at h
    rcases hdeadline : now.later? p.window horizon with _ | deadline <;> rw [hdeadline] at h <;>
      cases h
  | parting =>
    simp only [step] at h
    split at h <;> cases h
  | resting | watching | lingering =>
    simp only [step] at h
    split_ifs at h
  | ended => cases h

/-! ## The way forward -/

lemma step_advances (p : DrainPolicy) (horizon now : Duration) (stage : DrainStage) (s : Session) :
    s.Advances (stage.step p horizon now s).2 := by
  rcases stage.step_session_cases p horizon now s with h | ⟨c, h⟩ <;> rw [h]
  · exact .refl s
  · exact .perform s c

/-- The drain has nothing more to tell. -/
def isFinal : DrainStage → Bool
  | lingering _ | ended => true
  | _ => false

/-- A drain has nothing more to tell once its session is over, or once it has sent DISCONNECT, as
long as the clock can tell the end of its window. -/
lemma final_step_cases (hclock : now.nanos + p.window.nanos < horizon.nanos)
    (h : (stage.step p horizon now s).1.isFinal = true) :
    stage.isFinal = true ∨ (stage.step p horizon now s).2.state = .disconnected ∨
      ∃ quiet limit, stage = .parting quiet ∧
        (stage.step p horizon now s).1 = .lingering limit := by
  cases stage with
  | starting =>
    simp only [step] at h
    repeat' split at h
    all_goals cases h
  | announced =>
    rw [step_announced, Duration.later?_of_lt hclock] at h
    cases h
  | looking =>
    simp only [step] at h
    split_ifs at h
    all_goals cases h
  | resting deadline wake =>
    by_cases hs : s.state.isTerminal = true
    · simp only [step, if_pos hs]
      exact Or.inr (Or.inl ((SessionState.isTerminal_iff _).mp hs))
    · simp only [step, if_neg hs] at h
      split_ifs at h <;> cases h
  | watching deadline =>
    by_cases hs : s.state.isTerminal = true
    · simp only [step, if_pos hs]
      exact Or.inr (Or.inl ((SessionState.isTerminal_iff _).mp hs))
    · simp only [step, if_neg hs] at h
      split_ifs at h <;> cases h
  | parting quiet =>
    rcases hsend : s.sendControl .disconnect with e | t
    · simp only [step, hsend]
      exact Or.inr (Or.inl s.state_closed)
    · exact Or.inr (Or.inr ⟨quiet, _, rfl, by simp only [step, hsend]; rfl⟩)
  | lingering | ended => exact Or.inl rfl

end RemoteCall.DrainStage
