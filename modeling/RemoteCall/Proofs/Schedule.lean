/-
# When a drain sends what

A drain that is announced looks at the count at every multiple of its pause.  It parts at the first
look that finds no request under way or comes at the end of the window or later, unless its session
has ended before.  Between two looks nothing happens but what the other tasks do, so what a drain
has sent at some time is settled by what it has come upon at its looks.
-/
import Mathlib.Data.Nat.Find
import RemoteCall.Proofs.Drain
import RemoteCall.Session.Schedule

namespace RemoteCall

/-- A session after its drain has been announced: SUSPEND is in the queue, and the session is
suspended if it may be. -/
def Session.announced (v : ProtocolVersion) (s : Session) : Session :=
  (perform { s with queue := s.queue ++ [.control v .suspend] } (.moveTo .suspending)).1

/-- The session is open, and frames can be sent on it at a version. -/
structure Session.IsOpen (v : ProtocolVersion) (s : Session) : Prop where
  version : s.version = some v
  state : s.state ≠ .disconnected
  reader : s.queueOpen = true

namespace Session.IsOpen

variable {v : ProtocolVersion} {s t : Session}

lemma isTerminal (h : s.IsOpen v) : s.state.isTerminal = false := by
  rw [← Bool.not_eq_true, SessionState.isTerminal_iff]
  exact h.state

lemma sendControl (h : s.IsOpen v) (type : MessageType) :
    s.sendControl type = .ok { s with queue := s.queue ++ [.control v type] } :=
  sendControl_eq_ok.mpr ⟨v, h.version, h.state, h.reader, rfl⟩

/-- An open session stays as open as it was unless it ends. -/
lemma advances (h : s.IsOpen v) (ht : s.Advances t) (hstate : t.state ≠ .disconnected) :
    t.IsOpen v :=
  ⟨ht.version v h.version, hstate, (ht.reader.resolve_right hstate).trans h.reader⟩

lemma append (h : s.IsOpen v) (f : Frame) : IsOpen v { s with queue := s.queue ++ [f] } :=
  ⟨h.version, h.state, h.reader⟩

/-- A session whose drain is announced stays open and keeps its count. -/
lemma announced (h : s.IsOpen v) :
    (s.announced v).IsOpen v ∧ (s.announced v).outstanding = s.outstanding ∧
      (s.announced v).queue = s.queue ++ [.control v .suspend] := by
  by_cases hmay : s.state.mayBecome .suspending = true
  · simp only [Session.announced, perform, moveTo, hmay, if_true]
    exact ⟨⟨h.version, SessionState.noConfusion, h.reader⟩, trivial, trivial⟩
  · simp only [Session.announced, perform, moveTo, hmay]
    exact ⟨h.append _, rfl, rfl⟩

end Session.IsOpen

/-! ## Going on until there is something to wait for -/

namespace DrainStage

variable {p : DrainPolicy} {horizon now : Duration} {stage : DrainStage} {s : Session}
  {v : ProtocolVersion}

lemma settle_of_isBlocked (h : stage.isBlocked now s = true) (fuel : Nat) :
    settle p horizon now fuel stage s = (stage, s) := by
  cases fuel with
  | zero => rfl
  | succ fuel => rw [settle, if_pos h]

lemma settle_succ (h : stage.isBlocked now s = false) (fuel : Nat) :
    settle p horizon now (fuel + 1) stage s =
      settle p horizon now fuel (stage.step p horizon now s).1 (stage.step p horizon now s).2 := by
  rw [settle, if_neg (by simp [h])]

/-- What each step does to a session, and one step after the other, they all do together. -/
lemma settle_of_step {R : Session → Session → Prop} (hrefl : ∀ s, R s s)
    (htrans : ∀ s t u, R s t → R t u → R s u)
    (hstep : ∀ stage s, R s (step p horizon now stage s).2) (fuel : Nat) (stage : DrainStage)
    (s : Session) : R s (settle p horizon now fuel stage s).2 := by
  induction fuel generalizing stage s with
  | zero => exact hrefl s
  | succ fuel ih =>
    cases h : stage.isBlocked now s with
    | true =>
      rw [settle_of_isBlocked h]
      exact hrefl s
    | false =>
      rw [settle_succ h]
      exact htrans _ _ _ (hstep stage s) (ih _ _)

lemma settle_advances (p : DrainPolicy) (horizon now : Duration) (fuel : Nat) (stage : DrainStage)
    (s : Session) : s.Advances (settle p horizon now fuel stage s).2 :=
  settle_of_step .refl (fun _ _ _ => .trans) (step_advances p horizon now) fuel stage s

lemma queue_prefix_settle (p : DrainPolicy) (horizon now : Duration) (fuel : Nat)
    (stage : DrainStage) (s : Session) : s.queue <+: (settle p horizon now fuel stage s).2.queue :=
  settle_of_step (R := fun s t => s.queue <+: t.queue) (fun _ => List.prefix_rfl)
    (fun _ _ _ => List.IsPrefix.trans) (queue_prefix_step p horizon now) fuel stage s

/-- A drain that waits goes no further than to the end of its session. -/
lemma settle_of_disconnected (hs : s.state = .disconnected)
    (hstage : (∃ deadline wake, stage = .resting deadline wake) ∨ ∃ limit, stage = .lingering limit)
    (fuel : Nat) : settle p horizon now (fuel + 1) stage s = (ended, s) := by
  have hover : s.state.isTerminal = true := (SessionState.isTerminal_iff _).mpr hs
  rcases hstage with ⟨deadline, wake, rfl⟩ | ⟨limit, rfl⟩ <;>
    rw [settle_succ (by simp [isBlocked, hover])] <;>
    simp only [step, hover, if_true] <;>
    exact settle_of_isBlocked rfl fuel

lemma linger_pos (p : DrainPolicy) : 0 < p.linger.nanos := by
  simp only [DrainPolicy.linger, Duration.ofSeconds]
  omega

/-- A drain that parts from an open session sends DISCONNECT and lingers. -/
lemma settle_parting (hs : s.IsOpen v) (quiet : Bool) (fuel : Nat) :
    settle p horizon now (fuel + 1) (parting quiet) s =
      (lingering (later now p.linger),
        { s with queue := s.queue ++ [.control v .disconnect] }) := by
  rw [settle_succ rfl]
  simp only [step, hs.sendControl]
  refine settle_of_isBlocked ?_ fuel
  simp [isBlocked, hs.isTerminal, later, linger_pos]

/-- A look at an open session has one of two outcomes. -/
lemma settle_looking (hpause : 0 < p.pause.nanos) (hs : s.IsOpen v) (deadline : Duration)
    (fuel : Nat) :
    settle p horizon now (fuel + 2) (looking deadline) s =
      if s.outstanding = 0 ∨ deadline.nanos ≤ now.nanos then
        (lingering (later now p.linger), { s with queue := s.queue ++ [.control v .disconnect] })
      else (resting deadline (later now p.pause), s) := by
  rw [settle_succ rfl]
  by_cases hcount : s.outstanding = 0
  · simp only [step, hcount, true_or, if_true]
    rw [settle_parting hs]
    simp only [hcount]
  · by_cases hdeadline : deadline.nanos ≤ now.nanos
    · simp only [step, hcount, hdeadline, or_true, if_true, if_false]
      exact settle_parting hs false fuel
    · have hpause' : p.pause.nanos ≠ 0 := by omega
      simp only [step, hcount, hdeadline, hpause', or_self, if_false]
      refine settle_of_isBlocked ?_ _
      simp [isBlocked, hs.isTerminal, later, hpause]

/-- A drain that is announced sends SUSPEND and suspends its session at once. -/
lemma settle_starting (ha : p.announces s = true) (hs : s.IsOpen v) (fuel : Nat) :
    settle p horizon now (fuel + 2) starting s =
      settle p horizon now fuel ((now.later? p.window horizon).elim ended looking)
        (s.announced v) := by
  have hstarting : starting.step p horizon now s =
      (announced, { s with queue := s.queue ++ [.control v .suspend] }) := by
    simp [step, ha, hs.sendControl]
  rw [settle_succ rfl, hstarting, settle_succ rfl, step_announced]
  rfl

/-- A drain that is not announced sends DISCONNECT at once. -/
lemma settle_starting_unannounced (ha : p.announces s = false) (hs : s.IsOpen v) (fuel : Nat) :
    settle p horizon now (fuel + 2) starting s =
      (lingering (later now p.linger),
        { s with queue := s.queue ++ [.control v .disconnect] }) := by
  have hstarting : starting.step p horizon now s = (parting false, s) := by
    simp [step, ha]
  rw [settle_succ rfl, hstarting, settle_parting hs]

end DrainStage

lemma DrainPolicy.announces_iff {p : DrainPolicy} {s : Session} {v : ProtocolVersion}
    (hv : s.version = some v) :
    p.announces s = true ↔ p.window.nanos ≠ 0 ∧ 5 ≤ v.number := by
  simp only [announces, hv, Option.any_some, ProtocolVersion.supports, ProtocolVersion.suspend,
    Bool.and_eq_true, bne_iff_ne]
  exact and_congr_right fun _ => decide_eq_true_iff

/-! ## What a drain leaves at each time -/

namespace TimedDrain

open DrainStage

variable {p : DrainPolicy} {horizon : Duration} {others : Nat → Session → Session} {s : Session}
  {v : ProtocolVersion} {x : TimedDrain} {now limit : Nat} {told : List (Nat × Frame)}

lemma goOn_of_settle {stage : DrainStage} {t : Session} (frames : List Frame)
    (h : x.stage.settle p horizon ⟨now⟩ patience x.session = (stage, t))
    (hqueue : t.queue = x.session.queue ++ frames) :
    x.goOn p horizon now = ⟨stage, t, x.sent ++ frames.map (Prod.mk now)⟩ := by
  simp only [goOn, h, hqueue, List.drop_left]

/-- What is written down is what a drain puts into the queue. -/
lemma exists_sent_goOn (p : DrainPolicy) (horizon : Duration) (now : Nat) (x : TimedDrain) :
    ∃ frames, (x.goOn p horizon now).session.queue = x.session.queue ++ frames ∧
      (x.goOn p horizon now).sent = x.sent ++ frames.map (Prod.mk now) := by
  obtain ⟨frames, hqueue⟩ := queue_prefix_settle p horizon ⟨now⟩ patience x.stage x.session
  exact ⟨frames, hqueue.symm, by rw [goOn_of_settle frames rfl hqueue.symm]⟩

/-- A drain that has nothing to do leaves everything as it is. -/
lemma goOn_of_isBlocked (h : x.stage.isBlocked ⟨now⟩ x.session = true) :
    x.goOn p horizon now = x := by
  have hsettle : x.stage.settle p horizon ⟨now⟩ patience x.session = (x.stage, x.session) :=
    settle_of_isBlocked h patience
  have hgo := goOn_of_settle [] hsettle (List.append_nil _).symm
  simpa using hgo

lemma goOn_of_disconnected (hs : x.session.state = .disconnected)
    (hstage : (∃ deadline wake, x.stage = .resting deadline wake) ∨
      ∃ limit, x.stage = .lingering limit) :
    x.goOn p horizon now = { x with stage := .ended } := by
  have hsettle : x.stage.settle p horizon ⟨now⟩ patience x.session = (.ended, x.session) :=
    settle_of_disconnected hs hstage 7
  have hgo := goOn_of_settle [] hsettle (List.append_nil _).symm
  simpa using hgo

/-- A drain that looks at the count of an open session parts from it or rests. -/
lemma goOn_of_looks {y : Session} (frames : List Frame) {fuel : Nat} (hpause : 0 < p.pause.nanos)
    (h : x.stage.settle p horizon ⟨now⟩ patience x.session =
      settle p horizon ⟨now⟩ (fuel + 2) (looking p.window) y)
    (hy : y.IsOpen v) (hqueue : y.queue = x.session.queue ++ frames) :
    x.goOn p horizon now =
      if y.outstanding = 0 ∨ p.window.nanos ≤ now then
        ⟨.lingering ⟨now + p.linger.nanos⟩, { y with queue := y.queue ++ [.control v .disconnect] },
          x.sent ++ (frames ++ [Frame.control v .disconnect]).map (Prod.mk now)⟩
      else ⟨.resting p.window ⟨now + p.pause.nanos⟩, y, x.sent ++ frames.map (Prod.mk now)⟩ := by
  rw [settle_looking hpause hy] at h
  split_ifs with hdue
  · rw [if_pos hdue] at h
    exact goOn_of_settle _ h (by simp [hqueue])
  · rw [if_neg hdue] at h
    exact goOn_of_settle frames h hqueue

/-- The drain has sent what it has to send: it waits for the end of the session until a time, or
the session has ended. -/
structure Parted (limit : Nat) (told : List (Nat × Frame)) (now : Nat) (x : TimedDrain) :
    Prop where
  sent : x.sent = told
  stage : x.stage = .lingering ⟨limit⟩ ∧ now < limit ∨
    x.stage = .ended ∧ x.session.state = .disconnected

lemma Parted.ended (h : Parted limit told now x) (hlimit : limit ≤ now) : x.stage = .ended := by
  rcases h.stage with ⟨-, hnow⟩ | ⟨hended, -⟩
  · omega
  · exact hended

lemma Parted.over (h : Parted limit told now x) (hended : x.stage = .ended) :
    x.session.state = .disconnected := by
  rcases h.stage with ⟨hstage, -⟩ | ⟨-, hover⟩
  · cases hended.symm.trans hstage
  · exact hover

/-- The drain rests after look number `k`. -/
structure Rests (p : DrainPolicy) (v : ProtocolVersion) (k now : Nat) (x : TimedDrain) : Prop where
  sent : x.sent = [(0, .control v .suspend)]
  stage : x.stage = .resting p.window ⟨(k + 1) * p.pause.nanos⟩
  looked : k * p.pause.nanos ≤ now
  rests : now < (k + 1) * p.pause.nanos

lemma Rests.lt {j k : Nat} (h : Rests p v j now x) (hk : j < k) : now < k * p.pause.nanos :=
  Nat.lt_of_lt_of_le h.rests (Nat.mul_le_mul_right _ hk)

/-- The end of the session is all that a drain goes on for once it has parted. -/
lemma parted_goOn (h : x.stage = .lingering ⟨limit⟩ ∧ now ≤ limit ∨
    x.stage = .ended ∧ x.session.state = .disconnected) :
    Parted limit x.sent now (x.goOn p horizon now) := by
  rcases h with ⟨hstage, hnow⟩ | hended
  · by_cases hstate : x.session.state = .disconnected
    · rw [goOn_of_disconnected hstate (Or.inr ⟨_, hstage⟩)]
      exact ⟨rfl, Or.inr ⟨rfl, hstate⟩⟩
    have hopen : x.session.state.isTerminal = false := by
      simpa [← SessionState.isTerminal_iff] using hstate
    by_cases hlimit : now < limit
    · rw [goOn_of_isBlocked (by simp [hstage, isBlocked, hlimit, hopen])]
      exact ⟨rfl, Or.inl ⟨hstage, hlimit⟩⟩
    · have hsettle : x.stage.settle p horizon ⟨now⟩ patience x.session =
          (.ended, x.session.closed) := by
        rw [hstage, patience, settle_succ (by simp [isBlocked, hlimit])]
        simp only [step, hopen, Nat.le_of_not_lt hlimit, if_true]
        exact settle_of_isBlocked rfl 7
      rw [goOn_of_settle [] hsettle (by simp)]
      exact ⟨List.append_nil _, Or.inr ⟨rfl, Session.state_closed _⟩⟩
  · rw [goOn_of_isBlocked (by rw [hended.1]; rfl)]
    exact ⟨rfl, Or.inr hended⟩

/-- A look number at which an announced drain parts if its session is open: the drain comes upon no
request under way, or the window has passed. -/
def Due (p : DrainPolicy) (horizon : Duration) (others : Nat → Session → Session) (s : Session)
    (k : Nat) : Prop :=
  (found p horizon others s (k * p.pause.nanos)).session.outstanding = 0 ∨
    p.window.nanos ≤ k * p.pause.nanos

lemma advances_left (t : Nat) :
    (found p horizon others s t).session.Advances (left p horizon others s t).session :=
  settle_advances p horizon ⟨t⟩ patience _ _

section Run

variable (hothers : ∀ t x, Session.Advances x (others t x)) (hs : s.IsOpen v)
include hothers

lemma advances_found {t u : Nat} (h : t ≤ u) :
    (found p horizon others s t).session.Advances (found p horizon others s u).session := by
  induction h with
  | refl => exact .refl _
  | step _ ih => exact (ih.trans (advances_left _)).trans (hothers _ _)

include hs in
lemma isOpen_found {t : Nat} (h : (found p horizon others s t).session.state ≠ .disconnected) :
    (found p horizon others s t).session.IsOpen v :=
  hs.advances (advances_found hothers (Nat.zero_le t)) h

lemma Parted.later {t u : Nat} (h : Parted limit told t (left p horizon others s t)) (htu : t ≤ u) :
    Parted limit told u (left p horizon others s u) := by
  induction htu with
  | refl => exact h
  | @step u _ ih =>
    have hgo : Parted limit (found p horizon others s (u + 1)).sent (u + 1)
        (left p horizon others s (u + 1)) :=
      parted_goOn (ih.stage.imp_right fun hended => ⟨hended.1, (hothers _ _).stays hended.2⟩)
    exact ⟨hgo.sent.trans ih.sent, hgo.stage⟩

end Run

/-! ### The start -/

/-- A drain that is not announced has parted at once. -/
lemma parted_left_zero (hs : s.IsOpen v) (ha : p.announces s = false) :
    Parted p.linger.nanos [(0, .control v .disconnect)] 0 (left p horizon others s 0) := by
  have hgo : left p horizon others s 0 = ⟨.lingering ⟨0 + p.linger.nanos⟩,
      { s with queue := s.queue ++ [.control v .disconnect] },
      [] ++ [Frame.control v .disconnect].map (Prod.mk 0)⟩ :=
    goOn_of_settle _ (settle_starting_unannounced ha hs 6) rfl
  rw [hgo, Nat.zero_add]
  exact ⟨rfl, Or.inl ⟨rfl, linger_pos p⟩⟩

/-- An announced drain parts at once if its first look is its last, and rests otherwise. -/
lemma rests_or_parted_left_zero (others : Nat → Session → Session) (hpause : 0 < p.pause.nanos)
    (hclock : p.window.nanos < horizon.nanos) (hs : s.IsOpen v) (ha : p.announces s = true) :
    (¬ Due p horizon others s 0 ∧ Rests p v 0 0 (left p horizon others s 0)) ∨
      (Due p horizon others s 0 ∧ Parted p.linger.nanos
        [(0, .control v .suspend), (0, .control v .disconnect)] 0 (left p horizon others s 0)) := by
  obtain ⟨hopen, hcount, hqueue⟩ := hs.announced
  have hwindow : Duration.later? ⟨0⟩ p.window horizon = some p.window := by
    simp [Duration.later?, hclock]
  have hlooks : (found p horizon others s 0).stage.settle p horizon ⟨0⟩ patience
      (found p horizon others s 0).session =
      settle p horizon ⟨0⟩ 6 (looking p.window) (s.announced v) := by
    refine (settle_starting ha hs 6).trans ?_
    rw [hwindow, Option.elim_some]
  have hgo := goOn_of_looks _ hpause hlooks hopen hqueue
  have hdue : Due p horizon others s 0 ↔ s.outstanding = 0 ∨ p.window.nanos ≤ 0 := by
    simp only [Due, Nat.zero_mul, found]
  rw [left, hgo, hcount]
  by_cases h : Due p horizon others s 0
  · rw [if_pos (hdue.mp h), Nat.zero_add]
    exact Or.inr ⟨h, rfl, Or.inl ⟨rfl, linger_pos p⟩⟩
  · rw [if_neg (h ∘ hdue.mpr)]
    exact Or.inl ⟨h, rfl, by simp, by simp, by simpa using hpause⟩

/-- A drain that has ended leaves its session to the other tasks. -/
lemma left_succ_of_ended {t : Nat} (h : (left p horizon others s t).stage = .ended) :
    left p horizon others s (t + 1) =
      { left p horizon others s t with
        session := others (t + 1) (left p horizon others s t).session } := by
  have hended : (found p horizon others s (t + 1)).stage = .ended := h
  exact goOn_of_isBlocked (by rw [hended]; rfl)

/-- An announced drain whose window reaches beyond the end of the clock breaks off when it has sent
SUSPEND. -/
lemma left_zero_of_horizon_le (others : Nat → Session → Session)
    (hclock : horizon.nanos ≤ p.window.nanos) (hs : s.IsOpen v) (ha : p.announces s = true) :
    left p horizon others s 0 = ⟨.ended, s.announced v, [(0, .control v .suspend)]⟩ := by
  have hnone : Duration.later? ⟨0⟩ p.window horizon = none := by
    rw [Duration.later?_eq_none_iff, Nat.zero_add]
    exact hclock
  have hsettle : starting.settle p horizon ⟨0⟩ patience s = (.ended, s.announced v) := by
    refine (settle_starting ha hs 6).trans ?_
    rw [hnone, Option.elim_none]
    exact settle_of_isBlocked rfl 6
  exact goOn_of_settle [_] hsettle hs.announced.2.2

/-! ### Rests -/

section Rests

variable {k t : Nat} (h : Rests p v k t (left p horizon others s t))
include h

/-- A drain that rests goes on when its session ends. -/
lemma Rests.parted_of_disconnected
    (hover : (found p horizon others s (t + 1)).session.state = .disconnected) (limit : Nat) :
    Parted limit [(0, .control v .suspend)] (t + 1) (left p horizon others s (t + 1)) := by
  have hgo : left p horizon others s (t + 1) =
      { found p horizon others s (t + 1) with stage := .ended } :=
    goOn_of_disconnected hover (Or.inl ⟨_, _, h.stage⟩)
  rw [hgo]
  exact ⟨h.sent, Or.inr ⟨rfl, hover⟩⟩

/-- Between two looks a drain of an open session rests. -/
lemma Rests.of_lt (hopen : (found p horizon others s (t + 1)).session.IsOpen v)
    (hearly : t + 1 < (k + 1) * p.pause.nanos) :
    Rests p v k (t + 1) (left p horizon others s (t + 1)) := by
  have hblocked : (found p horizon others s (t + 1)).stage.isBlocked ⟨t + 1⟩
      (found p horizon others s (t + 1)).session = true := by
    rw [show (found p horizon others s (t + 1)).stage = _ from h.stage]
    simp [isBlocked, hopen.isTerminal, hearly]
  rw [left, goOn_of_isBlocked hblocked]
  exact ⟨h.sent, h.stage, Nat.le_succ_of_le h.looked, hearly⟩

/-- The next look of a drain has one of two outcomes. -/
lemma Rests.look (hpause : 0 < p.pause.nanos)
    (hopen : (found p horizon others s (t + 1)).session.IsOpen v)
    (hwake : t + 1 = (k + 1) * p.pause.nanos) :
    (¬ Due p horizon others s (k + 1) ∧
        Rests p v (k + 1) (t + 1) (left p horizon others s (t + 1))) ∨
      (Due p horizon others s (k + 1) ∧ Parted (t + 1 + p.linger.nanos)
        [(0, .control v .suspend), (t + 1, .control v .disconnect)] (t + 1)
        (left p horizon others s (t + 1))) := by
  have hlooks : (found p horizon others s (t + 1)).stage.settle p horizon ⟨t + 1⟩ patience
      (found p horizon others s (t + 1)).session =
      settle p horizon ⟨t + 1⟩ (5 + 2) (looking p.window)
        (found p horizon others s (t + 1)).session := by
    rw [show (found p horizon others s (t + 1)).stage = _ from h.stage, patience,
      settle_succ (by simp [isBlocked, ← hwake])]
    simp [step, hopen.isTerminal, ← hwake]
  have hgo := goOn_of_looks [] hpause hlooks hopen (List.append_nil _).symm
  have hsent : (found p horizon others s (t + 1)).sent = [(0, .control v .suspend)] := h.sent
  have hdue : Due p horizon others s (k + 1) ↔
      (found p horizon others s (t + 1)).session.outstanding = 0 ∨ p.window.nanos ≤ t + 1 := by
    simp only [Due, hwake]
  rw [left, hgo, hsent]
  by_cases hlast : Due p horizon others s (k + 1)
  · rw [if_pos (hdue.mp hlast)]
    exact Or.inr ⟨hlast, rfl, Or.inl ⟨rfl, Nat.lt_add_of_pos_right (linger_pos p)⟩⟩
  · rw [if_neg (hlast ∘ hdue.mpr)]
    refine Or.inl ⟨hlast, rfl, ?_, Nat.le_of_eq hwake.symm, ?_⟩
    · rw [hwake, Nat.succ_mul (k + 1)]
    · rw [hwake, Nat.succ_mul (k + 1)]
      exact Nat.lt_add_of_pos_right hpause

end Rests

/-! ## The schedule -/

/-- Where an announced drain stands at a time if look number `k` is the first one that is due. -/
inductive Stands (p : DrainPolicy) (horizon : Duration) (others : Nat → Session → Session)
    (s : Session) (v : ProtocolVersion) (k t : Nat) : Prop
  /-- It rests, and the look is still to come. -/
  | resting (last : Nat) (hlast : last < k) (h : Rests p v last t (left p horizon others s t))
  /-- The session has ended before the look. -/
  | cutShort (hover : (found p horizon others s (k * p.pause.nanos)).session.state = .disconnected)
      (h : Parted (k * p.pause.nanos + p.linger.nanos) [(0, .control v .suspend)] t
        (left p horizon others s t))
  /-- It has looked and parted. -/
  | parted (hopen : (found p horizon others s (k * p.pause.nanos)).session.state ≠ .disconnected)
      (hnow : k * p.pause.nanos ≤ t)
      (h : Parted (k * p.pause.nanos + p.linger.nanos)
        [(0, .control v .suspend), (k * p.pause.nanos, .control v .disconnect)] t
        (left p horizon others s t))

section Schedule

variable (hpause : 0 < p.pause.nanos) (hs : s.IsOpen v)
  (hothers : ∀ t x, Session.Advances x (others t x))
include hpause hs

lemma stands_zero (hclock : p.window.nanos < horizon.nanos) (ha : p.announces s = true) {k : Nat}
    (hdue : Due p horizon others s k) (hearlier : ∀ j < k, ¬ Due p horizon others s j) :
    Stands p horizon others s v k 0 := by
  rcases rests_or_parted_left_zero others hpause hclock hs ha with
    ⟨hnot, hrests⟩ | ⟨hfirst, hparted⟩
  · have hk : 0 < k := Nat.pos_of_ne_zero fun h => hnot (h ▸ hdue)
    exact .resting 0 hk hrests
  · have hk : k = 0 := by
      by_contra h
      exact hearlier 0 (Nat.pos_of_ne_zero h) hfirst
    subst hk
    refine .parted ?_ (by simp) (by simpa using hparted)
    rw [Nat.zero_mul]
    exact hs.state

include hothers in
lemma Stands.next {k t : Nat} (hdue : Due p horizon others s k)
    (hearlier : ∀ j < k, ¬ Due p horizon others s j) (h : Stands p horizon others s v k t) :
    Stands p horizon others s v k (t + 1) := by
  cases h with
  | resting last hlast h =>
    by_cases hover : (found p horizon others s (t + 1)).session.state = .disconnected
    · refine .cutShort ?_ (h.parted_of_disconnected hover _)
      exact (advances_found hothers (h.lt hlast)).stays hover
    have hopen := isOpen_found hothers hs hover
    rcases Nat.lt_or_eq_of_le (show t + 1 ≤ _ from h.rests) with hearly | hwake
    · exact .resting last hlast (h.of_lt hopen hearly)
    -- look number `k` is the first one that is due, so this one is due if it is look number `k`
    rcases h.look hpause hopen hwake with ⟨hnot, hrests⟩ | ⟨hlook, hparted⟩
    · have hne : last + 1 ≠ k := fun he => hnot (he ▸ hdue)
      exact .resting (last + 1) (by omega) hrests
    · have he : last + 1 = k := by
        by_contra hne
        exact hearlier (last + 1) (by omega) hlook
      subst he
      refine .parted ?_ ?_ ?_ <;> rw [← hwake]
      · exact hover
      · exact hparted
  | cutShort hover h => exact .cutShort hover (h.later hothers (Nat.le_succ t))
  | parted hopen hnow h =>
    exact .parted hopen (Nat.le_succ_of_le hnow) (h.later hothers (Nat.le_succ t))

include hothers in
lemma stands (hclock : p.window.nanos < horizon.nanos) (ha : p.announces s = true) {k : Nat}
    (hdue : Due p horizon others s k) (hearlier : ∀ j < k, ¬ Due p horizon others s j) (t : Nat) :
    Stands p horizon others s v k t := by
  induction t with
  | zero => exact stands_zero hpause hs hclock ha hdue hearlier
  | succ t ih => exact ih.next hpause hs hothers hdue hearlier

end Schedule

/-- An announced drain has sent what its schedule says. -/
lemma Stands.sent {k t : Nat} (h : Stands p horizon others s v k t) :
    (left p horizon others s t).sent = (0, .control v .suspend) ::
      (if k * p.pause.nanos ≤ t ∧
          (found p horizon others s (k * p.pause.nanos)).session.state ≠ .disconnected then
        [(k * p.pause.nanos, .control v .disconnect)] else []) := by
  cases h with
  | resting last hlast h => rw [h.sent, if_neg fun hand => Nat.not_le_of_lt (h.lt hlast) hand.1]
  | cutShort hover h => rw [h.sent, if_neg fun hand => hand.2 hover]
  | parted hopen hnow h => rw [h.sent, if_pos ⟨hnow, hopen⟩]

lemma Stands.ended {k t : Nat} (h : Stands p horizon others s v k t)
    (ht : k * p.pause.nanos + p.linger.nanos ≤ t) : (left p horizon others s t).stage = .ended := by
  cases h with
  | resting last hlast h =>
    have hbefore := h.lt hlast
    omega
  | cutShort _ h | parted _ _ h => exact h.ended ht

lemma Stands.over {k t : Nat} (h : Stands p horizon others s v k t)
    (hended : (left p horizon others s t).stage = .ended) :
    (left p horizon others s t).session.state = .disconnected := by
  cases h with
  | resting _ _ h => cases hended.symm.trans h.stage
  | cutShort _ h | parted _ _ h => exact h.over hended

/-- There is a first look that is due, less than a pause after the end of the window. -/
lemma exists_first_due (hpause : 0 < p.pause.nanos) (horizon : Duration)
    (others : Nat → Session → Session) (s : Session) :
    ∃ k, Due p horizon others s k ∧ (∀ j < k, ¬ Due p horizon others s j) ∧
      k * p.pause.nanos < p.window.nanos + p.pause.nanos := by
  classical
  have hdue : ∃ k, Due p horizon others s k :=
    ⟨p.window.nanos, Or.inr (Nat.le_mul_of_pos_right _ hpause)⟩
  refine ⟨Nat.find hdue, Nat.find_spec hdue, fun j => Nat.find_min hdue, ?_⟩
  rcases hk : Nat.find hdue with _ | k
  · omega
  · have hbefore : ¬ p.window.nanos ≤ k * p.pause.nanos :=
      fun h => Nat.find_min hdue (by omega) (Or.inr h)
    rw [Nat.succ_mul]
    omega

end TimedDrain

open TimedDrain

variable {p : DrainPolicy} {horizon : Duration} {others : Nat → Session → Session} {s : Session}
  {v : ProtocolVersion}

/-- **A drain keeps to its schedule.**  It is started at time zero on an open session, and from
then on the other tasks use the session in whatever way they may.  If there is a window and the
peer knows SUSPEND, the drain sends SUSPEND at once.  It sends DISCONNECT at the first multiple of
its pause at which it comes upon no request under way or the window has passed, unless the session
has ended by then.  Otherwise it sends DISCONNECT at once.  It sends nothing else, it comes to an
end, and when it has ended so has the session.  What counts as sent is what the drain has put into
the queue.  A drain that is announced has to have a window that ends before the clock does. -/
theorem drain_schedule (hpause : 0 < p.pause.nanos) (hs : s.IsOpen v)
    (hothers : ∀ t x, Session.Advances x (others t x))
    (hclock : p.window.nanos ≠ 0 ∧ 5 ≤ v.number → p.window.nanos < horizon.nanos) :
    (p.window.nanos ≠ 0 ∧ 5 ≤ v.number →
      ∃ k, Due p horizon others s k ∧ (∀ j < k, ¬ Due p horizon others s j) ∧
        k * p.pause.nanos < p.window.nanos + p.pause.nanos ∧
        ∀ t, (left p horizon others s t).sent = (0, .control v .suspend) ::
            (if k * p.pause.nanos ≤ t ∧
                (found p horizon others s (k * p.pause.nanos)).session.state ≠ .disconnected then
              [(k * p.pause.nanos, .control v .disconnect)] else []) ∧
          (k * p.pause.nanos + p.linger.nanos ≤ t →
            (left p horizon others s t).stage = .ended)) ∧
    (¬ (p.window.nanos ≠ 0 ∧ 5 ≤ v.number) →
      ∀ t, (left p horizon others s t).sent = [(0, .control v .disconnect)] ∧
        (p.linger.nanos ≤ t → (left p horizon others s t).stage = .ended)) ∧
    (∀ t, (left p horizon others s t).stage = .ended →
      (left p horizon others s t).session.state = .disconnected) ∧
    ∀ t, ∃ frames,
      (left p horizon others s t).session.queue =
          (found p horizon others s t).session.queue ++ frames ∧
        (left p horizon others s t).sent =
          (found p horizon others s t).sent ++ frames.map (Prod.mk t) := by
  have hqueue (t : Nat) := exists_sent_goOn p horizon t (found p horizon others s t)
  rw [← DrainPolicy.announces_iff hs.version] at hclock ⊢
  cases ha : p.announces s with
  | true =>
    obtain ⟨k, hdue, hearlier, hk⟩ := exists_first_due hpause horizon others s
    have hstands := stands hpause hs hothers (hclock ha) ha hdue hearlier
    exact ⟨fun _ => ⟨k, hdue, hearlier, hk, fun t => ⟨(hstands t).sent, (hstands t).ended⟩⟩,
      fun h => absurd rfl h, fun t => (hstands t).over, hqueue⟩
  | false =>
    have hparted (t : Nat) : Parted p.linger.nanos [(0, .control v .disconnect)] t
        (left p horizon others s t) :=
      (parted_left_zero hs ha).later hothers (Nat.zero_le t)
    exact ⟨fun h => (Bool.false_ne_true h).elim, fun _ t => ⟨(hparted t).sent, (hparted t).ended⟩,
      fun t => (hparted t).over, hqueue⟩

/-- The only request is answered between the second look and the third. -/
theorem drain_schedule_between_looks :
    let p : DrainPolicy := { window := ⟨10⟩, pause := ⟨3⟩ }
    let s : Session :=
      { id := "s", role := .server, remote := .v4 127 0 0 1 9000, version := some .newest
        state := .active, outstanding := 1 }
    let others (t : Nat) (x : Session) : Session := if t = 5 then x.countDown else x
    0 < p.pause.nanos ∧ s.IsOpen .newest ∧ (∀ t x, Session.Advances x (others t x)) ∧
      (p.window.nanos ≠ 0 ∧ 5 ≤ ProtocolVersion.newest.number) ∧
      p.window.nanos < Duration.clockEnd.nanos ∧
      (∀ t, 6 ≤ t → (left p .clockEnd others s t).sent =
        [(0, .control .newest .suspend), (6, .control .newest .disconnect)]) ∧
      (∀ t, t < 6 → (left p .clockEnd others s t).sent = [(0, .control .newest .suspend)]) ∧
      ∀ t, (left p .clockEnd others s t).stage = .ended →
        (left p .clockEnd others s t).session.state = .disconnected := by
  intro p s others
  have hs : s.IsOpen .newest := ⟨rfl, by decide, rfl⟩
  have hothers (t : Nat) (x : Session) : x.Advances (others t x) := by
    by_cases ht : t = 5
    · simp only [others, ht, if_true]
      exact ⟨fun _ hv => hv, Nat.le_refl _, Or.inl rfl⟩
    · simp only [others, ht, if_false]
      exact .refl x
  have hannounced : p.window.nanos ≠ 0 ∧ 5 ≤ ProtocolVersion.newest.number := by decide
  have hclock : p.window.nanos < Duration.clockEnd.nanos := by decide
  obtain ⟨hschedule, -, hover, -⟩ :=
    drain_schedule (show 0 < p.pause.nanos by decide) hs hothers fun _ => hclock
  obtain ⟨k, hdue, hearlier, -, hsent⟩ := hschedule hannounced
  have hk : k = 2 := by
    have hnot : ∀ j < 2, ¬ Due p .clockEnd others s j := by
      simp only [Due]
      decide +kernel
    have hthird : Due p .clockEnd others s 2 := by
      simp only [Due]
      decide +kernel
    rcases Nat.lt_trichotomy k 2 with hlt | heq | hgt
    · exact absurd hdue (hnot k hlt)
    · exact heq
    · exact absurd hthird (hearlier 2 hgt)
  subst hk
  have hopen : (found p .clockEnd others s (2 * p.pause.nanos)).session.state ≠ .disconnected := by
    decide +kernel
  refine ⟨by decide, hs, hothers, hannounced, hclock, fun t ht => ?_, fun t ht => ?_, hover⟩
  · exact (hsent t).1.trans (congrArg _ (if_pos ⟨ht, hopen⟩))
  · exact (hsent t).1.trans (congrArg _ (if_neg fun hand => Nat.not_le_of_lt ht hand.1))

/-- The condition is needed.  A drain with the longest window there is sends SUSPEND and breaks off:
its session stays suspended, and no DISCONNECT follows. -/
theorem suspended_for_good :
    let p : DrainPolicy :=
      { window := .ofSeconds 18446744073709551615 999999999, pause := .ofMillis 25 }
    let s : Session :=
      { id := "s", role := .server, remote := .v4 127 0 0 1 9000, version := some .newest
        state := .active }
    0 < p.pause.nanos ∧ s.IsOpen .newest ∧
      (p.window.nanos ≠ 0 ∧ 5 ≤ ProtocolVersion.newest.number) ∧
      ∀ t, (left p .clockEnd (fun _ x => x) s t).stage = .ended ∧
        (left p .clockEnd (fun _ x => x) s t).sent = [(0, .control .newest .suspend)] ∧
        (left p .clockEnd (fun _ x => x) s t).session.state = .suspending := by
  intro p s
  have hs : s.IsOpen .newest := ⟨rfl, by decide, rfl⟩
  have hzero : left p .clockEnd (fun _ x => x) s 0 =
      ⟨.ended, s.announced .newest, [(0, .control .newest .suspend)]⟩ :=
    left_zero_of_horizon_le _ (by decide) hs (by decide)
  have hleft (t : Nat) : left p .clockEnd (fun _ x => x) s t =
      ⟨.ended, s.announced .newest, [(0, .control .newest .suspend)]⟩ := by
    induction t with
    | zero => exact hzero
    | succ t ih =>
      rw [left_succ_of_ended (by rw [ih]), ih]
  refine ⟨by decide, hs, by decide, fun t => ?_⟩
  rw [hleft t]
  exact ⟨rfl, rfl, by decide⟩

end RemoteCall
