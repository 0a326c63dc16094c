/-
# Heartbeats come in time

An end of a connection is never silent for longer than its interval and a pause between two looks
together: at the first look after the interval has passed, it sends a heartbeat if nothing has been
written in the meantime.  How long a peer waits has to be longer than that, and by a millisecond
more, since idle times are rounded down to milliseconds.
-/
import RemoteCall.Proofs.Schedule
import RemoteCall.Session.Watch
import RemoteCall.Settings.Client

namespace RemoteCall

/-! ## Writing all that waits -/

namespace Writer

variable {w : Writer} {s : Session} {now : Duration}

/-- The writer waits for frames. -/
def Waits (w : Writer) : Prop := w.stage = .polling ∨ w.stage = .checking

lemma settle_succ (h : w.isBlocked s = false) (capacity : Option Nat) (now : Duration)
    (fuel : Nat) :
    settle capacity now (fuel + 1) w s =
      settle capacity now fuel (w.step now s (w.sink.outcome capacity)).1
        (w.step now s (w.sink.outcome capacity)).2 := by
  simp [settle, h]

lemma settle_of_isBlocked (h : w.isBlocked s = true) (capacity : Option Nat) (now : Duration)
    (fuel : Nat) : settle capacity now fuel w s = (w, s) := by
  cases fuel <;> simp [settle, h]

/-- A session that is over stays so while its writer goes on. -/
lemma settle_of_disconnected (h : s.state = .disconnected) (capacity : Option Nat)
    (now : Duration) (fuel : Nat) : (settle capacity now fuel w s).2.state = .disconnected := by
  induction fuel generalizing w s with
  | zero => exact h
  | succ fuel ih =>
    by_cases hblocked : w.isBlocked s = true
    · rwa [settle_of_isBlocked hblocked]
    · rw [settle_succ (by simpa using hblocked)]
      exact ih ((step_passes (fun _ => h) now _).1.stays h)

/-- What becomes of a frame of an open session when nothing keeps it from being written. -/
lemma step_writing_whole {f : Frame} (hw : w.stage = .writing f) (s : Session) (now : Duration) :
    (w.step now s .whole).2.state = .disconnected ∨
      ∃ bytes, 0 < bytes.length ∧
        w.step now s .whole =
          ({ sink := w.sink.write bytes .whole, stage := .polling },
            s.recordWrite now bytes.length) := by
  by_cases hf : f.type = .disconnect
  · left
    simp only [step, hw, hf]
    exact Session.state_closed _
  have hstep : w.step now s .whole = w.writeOne now s f .whole .polling := by
    simp only [step, hw]
  rcases he : f.encode with e | bytes
  · left
    rw [hstep]
    simp only [writeOne, he]
    exact s.state_closed
  · refine Or.inr ⟨bytes, ?_, ?_⟩
    · rw [Frame.encode] at he
      split at he
      · cases he
        simp [Frame.header]
      · cases he
    · rw [hstep]
      simp only [writeOne, he]

end Writer

lemma Session.age_eq {s t : Session} (h : t.created = s.created) (now : Duration) :
    t.age now = s.age now := by
  rw [age, age, h]

namespace LiveEnd

variable {x y z : LiveEnd} {now : Duration} {v : ProtocolVersion}

/-- Nothing waits at an end whose session is open. -/
structure Rests (v : ProtocolVersion) (x : LiveEnd) : Prop where
  waits : x.writer.Waits
  isOpen : x.session.IsOpen v
  rank : 2 ≤ x.session.state.rank
  queue : x.session.queue = []

/-- What a time does to an end that comes to rest again: either nothing is written, or something is
and the time is noted. -/
structure Passes (now : Duration) (x y : LiveEnd) : Prop where
  created : y.session.created = x.session.created
  wrote : y.session.lastWrite = x.session.lastWrite ∧ y.writer.sink = x.writer.sink ∨
    y.session.lastWrite = x.session.age now ∧
      x.writer.sink.written.length < y.writer.sink.written.length

lemma Passes.refl (now : Duration) (x : LiveEnd) : x.Passes now x := ⟨rfl, Or.inl ⟨rfl, rfl⟩⟩

lemma Passes.length_le (h : x.Passes now y) :
    x.writer.sink.written.length ≤ y.writer.sink.written.length := by
  rcases h.wrote with ⟨-, hsink⟩ | ⟨-, hsink⟩
  · rw [hsink]
  · exact Nat.le_of_lt hsink

lemma Passes.trans (h : x.Passes now y) (h' : y.Passes now z) : x.Passes now z := by
  refine ⟨h'.created.trans h.created, ?_⟩
  rcases h'.wrote with ⟨hlast, hsink⟩ | ⟨hlast, hgrows⟩
  · rw [hlast, hsink]
    exact h.wrote
  · rw [hlast, Session.age_eq h.created]
    exact Or.inr ⟨rfl, Nat.lt_of_le_of_lt h.length_le hgrows⟩

/-- What is written at an end whose session stays open, and that something is if a frame waits. -/
structure Flushes (v : ProtocolVersion) (now : Duration) (x y : LiveEnd) : Prop where
  rests : y.Rests v
  passes : x.Passes now y
  grows : x.session.queue ≠ [] → x.writer.sink.written.length < y.writer.sink.written.length

lemma Flushes.refl (h : x.Rests v) (now : Duration) : x.Flushes v now x :=
  ⟨h, .refl now x, fun hqueue => absurd h.queue hqueue⟩

/-- Where nothing waits, nothing is written. -/
lemma Rests.flush (h : x.Rests v) (now : Duration) : x.flush now = x := by
  have hblocked : x.writer.isBlocked x.session = true := by
    rcases h.waits with hw | hw <;> simp [Writer.isBlocked, hw, h.queue, h.isOpen.isTerminal]
  rw [LiveEnd.flush, Writer.settle_of_isBlocked hblocked]

/-- A writer that looks at the queue of an open session writes all frames, unless one of them ends
the session. -/
lemma flushes_settle (now : Duration) {w : Writer} {s : Session} (hw : w.stage = .polling)
    (hs : s.IsOpen v) (hrank : 2 ≤ s.state.rank) {fuel : Nat} (hfuel : 2 * s.queue.length ≤ fuel) :
    (w.settle none now fuel s).2.state = .disconnected ∨
      Flushes v now ⟨s, w⟩ ⟨(w.settle none now fuel s).2, (w.settle none now fuel s).1⟩ := by
  induction hq : s.queue generalizing w s fuel with
  | nil =>
    have hblocked : w.isBlocked s = true := by
      simp [Writer.isBlocked, hw, hq, hs.isTerminal]
    rw [Writer.settle_of_isBlocked hblocked]
    exact Or.inr (.refl ⟨Or.inl hw, hs, hrank, hq⟩ now)
  | cons f rest ih =>
    obtain ⟨fuel, rfl⟩ : ∃ n, fuel = n + 2 := by
      rw [hq, List.length_cons] at hfuel
      exact ⟨fuel - 2, by omega⟩
    have htake : w.step now s .whole = (w.goTo (.writing f), { s with queue := rest }) := by
      simp only [Writer.step, hw, hq]
    rw [Writer.settle_succ (by simp [Writer.isBlocked, hw, hq]),
      show w.sink.outcome none = .whole from rfl, htake,
      Writer.settle_succ (by simp [Writer.isBlocked, Writer.goTo])]
    rcases Writer.step_writing_whole (w := w.goTo (.writing f)) rfl { s with queue := rest } now
      with hover | ⟨bytes, hpos, hstep⟩
    · exact Or.inl (Writer.settle_of_disconnected hover none now fuel)
    rw [show (w.goTo (.writing f)).sink.outcome none = .whole from rfl, hstep]
    have hlonger : w.sink.written.length < (w.sink.write bytes .whole).written.length := by
      simpa [Sink.write] using hpos
    have hwrote : Passes now ⟨s, w⟩
        ⟨({ s with queue := rest } : Session).recordWrite now bytes.length,
          { sink := w.sink.write bytes .whole, stage := .polling }⟩ :=
      ⟨rfl, Or.inr ⟨rfl, hlonger⟩⟩
    have hlength : 2 * rest.length ≤ fuel := by
      rw [hq, List.length_cons] at hfuel
      omega
    refine (ih (w := { sink := w.sink.write bytes .whole, stage := .polling })
      (s := ({ s with queue := rest } : Session).recordWrite now bytes.length)
      rfl ⟨hs.version, hs.state, hs.reader⟩ hrank hlength rfl).imp_right fun h => ?_
    exact ⟨h.rests, hwrote.trans h.passes, fun _ => Nat.lt_of_lt_of_le hlonger h.passes.length_le⟩

lemma flush_of_disconnected (h : x.session.state = .disconnected) (now : Duration) :
    (x.flush now).session.state = .disconnected := by
  rw [flush]
  exact Writer.settle_of_disconnected h none now (Writer.patience x.session)

/-- **What waits at an end is written**, unless it ends the session. -/
lemma flushes_flush (now : Duration) (hw : x.writer.Waits) (hx : x.session.IsOpen v)
    (hrank : 2 ≤ x.session.state.rank) :
    (x.flush now).session.state = .disconnected ∨ x.Flushes v now (x.flush now) := by
  rcases hw with hw | hw
  · have hfuel : 2 * x.session.queue.length ≤ Writer.patience x.session := by
      rw [Writer.patience]
      omega
    exact flushes_settle now hw hx hrank hfuel
  rcases hq : x.session.queue with _ | ⟨f, rest⟩
  · have hblocked : x.writer.isBlocked x.session = true := by
      simp [Writer.isBlocked, hw, hq, hx.isTerminal]
    rw [flush, Writer.settle_of_isBlocked hblocked]
    exact Or.inr (.refl ⟨Or.inr hw, hx, hrank, hq⟩ now)
  · have hlook : x.writer.step now x.session .whole = (x.writer.goTo .polling, x.session) := by
      simp [Writer.step, hw, hx.isTerminal]
    have hnot : x.writer.isBlocked x.session = false := by
      simp [Writer.isBlocked, hw, hq]
    have hflush : x.flush now =
        ⟨((x.writer.goTo .polling).settle none now (2 * x.session.queue.length + 7) x.session).2,
          ((x.writer.goTo .polling).settle none now (2 * x.session.queue.length + 7)
            x.session).1⟩ := by
      rw [flush, Writer.patience, Writer.settle_succ hnot,
        show x.writer.sink.outcome none = .whole from rfl, hlook]
    rw [hflush]
    have hsettle := flushes_settle now (w := x.writer.goTo .polling) rfl hx hrank
      (Nat.le_add_right (2 * x.session.queue.length) 7)
    exact hsettle.imp_right fun h => ⟨h.rests, ⟨h.passes.created, h.passes.wrote⟩, h.grows⟩

end LiveEnd

/-! ## What happens at a time -/

/-- A use of a session that leaves alone when it was made and when it was written last. -/
structure Session.Uses (s t : Session) : Prop where
  advances : s.Advances t
  created : t.created = s.created
  lastWrite : t.lastWrite = s.lastWrite

namespace Session.Uses

lemma refl (s : Session) : s.Uses s := ⟨.refl s, rfl, rfl⟩

lemma perform (s : Session) (c : SessionCall) : s.Uses (s.perform c).1 := by
  refine ⟨.perform s c, ?_, ?_⟩ <;>
    rcases s.perform_cases c with h | ⟨_, -, h⟩ | ⟨_, -, h⟩ | ⟨_, -, -, h⟩ <;> rw [h]

lemma recordRead (s : Session) (now : Duration) (size : Nat) : s.Uses (s.recordRead now size) :=
  ⟨.recordRead s now size, rfl, rfl⟩

end Session.Uses

lemma Session.IsOpen.watches {v : ProtocolVersion} {s : Session} (h : s.IsOpen v)
    (hrank : 2 ≤ s.state.rank) : KeepAlive.watches s.state = true := by
  have hstate := h.state
  revert hrank hstate
  cases s.state <;> decide

lemma KeepAlive.pause_pos (k : KeepAlive) : 0 < k.pause.nanos :=
  Nat.lt_of_lt_of_le (by decide) (Nat.le_max_right _ (Duration.ofMillis 5).nanos)

/-- A look at an open session ends it, or leaves it open; then a heartbeat waits if the interval has
passed. -/
lemma KeepAlive.look_open (k : KeepAlive) (now : Duration) {v : ProtocolVersion} {s : Session}
    (hs : s.IsOpen v) (hrank : 2 ≤ s.state.rank) :
    (k.look now s).state = .disconnected ∨
      (k.look now s).IsOpen v ∧ (k.look now s).state = s.state ∧ s.Uses (k.look now s) ∧
        (k.interval.nanos ≤ (s.writeIdle now).nanos → (k.look now s).queue ≠ []) := by
  have hwatches := hs.watches hrank
  by_cases hread : k.timeout.nanos ≤ (s.readIdle now).nanos
  · left
    simp [look, hwatches, hread, s.state_closed]
  right
  by_cases hwrite : k.interval.nanos ≤ (s.writeIdle now).nanos
  · have hlook : k.look now s = { s with queue := s.queue ++ [.control v .heartbeat] } := by
      simp [look, hwatches, hread, hwrite, hs.sendControl]
    rw [hlook]
    exact ⟨hs.append _, rfl, ⟨.sendControl (hs.sendControl .heartbeat), rfl, rfl⟩, fun _ => by simp⟩
  · have hlook : k.look now s = s := by simp [look, hwatches, hread, hwrite]
    rw [hlook]
    exact ⟨hs, rfl, .refl s, fun h => absurd h hwrite⟩

namespace WatchedEnd

variable {r : WatchedEnd} {v : ProtocolVersion} {x : LiveEnd} {n : Nat}

/-- A session that is over when what waits has been written stays so. -/
lemma instant_of_flush
    (h : (LiveEnd.flush (r.time n) { x with session := r.others n x.session }).session.state =
      .disconnected) : (r.instant n x).session.state = .disconnected := by
  rw [instant]
  split
  · refine LiveEnd.flush_of_disconnected ?_ _
    rw [KeepAlive.look, h]
    exact h
  · exact h

section Instant

variable (hothers : ∀ n s, Session.Uses s (r.others n s))
include hothers

lemma instant_of_disconnected (h : x.session.state = .disconnected) (n : Nat) :
    (r.instant n x).session.state = .disconnected :=
  instant_of_flush (LiveEnd.flush_of_disconnected ((hothers n _).advances.stays h) _)

/-- **What happens at a time** at an end whose session stays open: something is written if the
interval has passed and it is time for a look. -/
lemma instant_cases (hx : x.Rests v) (n : Nat) :
    (r.instant n x).session.state = .disconnected ∨
      (r.instant n x).Rests v ∧ x.Passes (r.time n) (r.instant n x) ∧
        (r.looksAt n = true →
          r.limits.interval.nanos ≤ (x.session.writeIdle (r.time n)).nanos →
          x.writer.sink.written.length < (r.instant n x).writer.sink.written.length) := by
  have huses := hothers n x.session
  by_cases hover : (r.others n x.session).state = .disconnected
  · exact Or.inl (instant_of_flush (LiveEnd.flush_of_disconnected hover _))
  have hrank := Nat.le_trans hx.rank huses.advances.rank
  -- what the other tasks have left is written first
  rcases LiveEnd.flushes_flush (r.time n) (x := { x with session := r.others n x.session })
    hx.waits (hx.isOpen.advances huses.advances hover) hrank with hover | hfirst
  · exact Or.inl (instant_of_flush hover)
  rw [instant]
  generalize LiveEnd.flush (r.time n) { x with session := r.others n x.session } = y at hfirst
  have hpasses : x.Passes (r.time n) y := by
    refine LiveEnd.Passes.trans (y := { x with session := r.others n x.session }) ?_ hfirst.passes
    exact ⟨huses.created, Or.inl ⟨huses.lastWrite, rfl⟩⟩
  by_cases hlooks : r.looksAt n = true
  · rw [if_pos hlooks]
    rcases r.limits.look_open (r.time n) hfirst.rests.isOpen hfirst.rests.rank with
      hover | ⟨hopen, hstate, hlook, hwaits⟩
    · exact Or.inl (LiveEnd.flush_of_disconnected hover _)
    refine (LiveEnd.flushes_flush (r.time n)
      (x := { y with session := r.limits.look (r.time n) y.session }) hfirst.rests.waits hopen
      (hstate ▸ hfirst.rests.rank)).imp_right fun hsecond => ?_
    have hboth : x.Passes (r.time n)
        (LiveEnd.flush (r.time n) { y with session := r.limits.look (r.time n) y.session }) := by
      refine hpasses.trans (LiveEnd.Passes.trans
        (y := { y with session := r.limits.look (r.time n) y.session }) ?_ hsecond.passes)
      exact ⟨hlook.created, Or.inl ⟨hlook.lastWrite, rfl⟩⟩
    refine ⟨hsecond.rests, hboth, fun _ hidle => ?_⟩
    -- unless something was written first, the look finds the same idle time and sends a heartbeat
    rcases hpasses.wrote with ⟨hlast, hsink⟩ | ⟨-, hgrows⟩
    · rw [← hsink]
      refine hsecond.grows (hwaits ?_)
      rwa [Session.writeIdle, Session.age_eq hpasses.created, hlast]
    · exact Nat.lt_of_lt_of_le hgrows hsecond.passes.length_le
  · rw [if_neg hlooks]
    exact Or.inr ⟨hfirst.rests, hpasses, fun h => absurd h hlooks⟩

end Instant

/-! ## Silence -/

/-- There is a look less than a pause after any time. -/
lemma exists_looksAt (r : WatchedEnd) (a : Nat) :
    ∃ n, r.looksAt n = true ∧ a ≤ n ∧ n < a + r.limits.pause.nanos := by
  have hpause := r.limits.pause_pos
  have hsplit := Nat.div_add_mod' (a + r.limits.pause.nanos - 1) r.limits.pause.nanos
  have hmod := Nat.mod_lt (a + r.limits.pause.nanos - 1) hpause
  refine ⟨(a + r.limits.pause.nanos - 1) / r.limits.pause.nanos * r.limits.pause.nanos, ?_, ?_, ?_⟩
  · simp [looksAt]
  · omega
  · omega

lemma age_time_le (s : Session) {m n : Nat} (h : m ≤ n) : s.age (r.time m) ≤ s.age (r.time n) := by
  simp only [Session.age, time, Duration.millis]
  omega

lemma sendsAt_iff (r : WatchedEnd) (n : Nat) :
    r.sendsAt n = true ↔
      (r.found n).writer.sink.written.length < (r.found (n + 1)).writer.sink.written.length := by
  rw [sendsAt, bytesAt, bne_iff_ne]
  omega

/-- What holds of an end at the time at which its watch starts. -/
structure Starts (r : WatchedEnd) (v : ProtocolVersion) : Prop where
  rests : LiveEnd.Rests v { session := r.session }
  created : r.session.created.nanos ≤ r.start
  lastWrite : r.session.lastWrite ≤ r.session.age (r.time 0)

section Silence

variable (hr : r.Starts v) (hothers : ∀ n s, Session.Uses s (r.others n s))

include hothers in
lemma open_of_le {m n : Nat} (hmn : m ≤ n) (hn : (r.found n).session.state ≠ .disconnected) :
    (r.found m).session.state ≠ .disconnected := by
  induction hmn with
  | refl => exact hn
  | @step n _ ih => exact ih fun hover => hn (instant_of_disconnected hothers hover n)

include hr hothers

/-- As long as its session is open, an end comes to rest at every time, and what it has noted as
the time of the last write lies in the past. -/
lemma rests_found (hn : (r.found n).session.state ≠ .disconnected) :
    (r.found n).Rests v ∧ (r.found n).session.created = r.session.created ∧
      (r.found n).session.lastWrite ≤ r.session.age (r.time n) := by
  induction n with
  | zero => exact ⟨hr.rests, rfl, hr.lastWrite⟩
  | succ n ih =>
    obtain ⟨hrests, hcreated, hlast⟩ := ih (open_of_le hothers (Nat.le_succ n) hn)
    obtain ⟨hnext, hpasses, -⟩ := (instant_cases hothers hrests n).resolve_left hn
    refine ⟨hnext, hpasses.created.trans hcreated, ?_⟩
    refine Nat.le_trans ?_ (age_time_le r.session (Nat.le_succ n))
    rcases hpasses.wrote with ⟨hsame, -⟩ | ⟨hnow, -⟩
    · exact hsame ▸ hlast
    · rw [show (r.found (n + 1)).session.lastWrite = _ from hnow, Session.age_eq hcreated]

/-- An end that is silent from some time on has noted no later time. -/
lemma lastWrite_of_silent {u : Nat} (hun : u < n)
    (hn : (r.found n).session.state ≠ .disconnected)
    (hsilent : ∀ t, u < t → t < n → r.sendsAt t = false) :
    (r.found n).session.lastWrite ≤ r.session.age (r.time u) := by
  induction hun with
  | refl =>
    obtain ⟨hrests, hcreated, hlast⟩ :=
      rests_found hr hothers (open_of_le hothers (Nat.le_succ u) hn)
    obtain ⟨-, hpasses, -⟩ := (instant_cases hothers hrests u).resolve_left hn
    rcases hpasses.wrote with ⟨hsame, -⟩ | ⟨hnow, -⟩
    · exact Nat.le_trans (Nat.le_of_eq hsame) hlast
    · exact Nat.le_of_eq (hnow.trans (Session.age_eq hcreated _))
  | @step n hun ih =>
    have hopen := open_of_le hothers (Nat.le_succ n) hn
    obtain ⟨-, hpasses, -⟩ :=
      (instant_cases hothers (rests_found hr hothers hopen).1 n).resolve_left hn
    rcases hpasses.wrote with ⟨hsame, -⟩ | ⟨-, hgrows⟩
    · exact Nat.le_trans (Nat.le_of_eq hsame)
        (ih hopen fun t hut htn => hsilent t hut (Nat.lt_succ_of_lt htn))
    · have hsends := (r.sendsAt_iff n).mpr hgrows
      rw [hsilent n hun (Nat.lt_succ_self n)] at hsends
      cases hsends

/-- Something is written at a look before which an end has been silent for its interval. -/
lemma sendsAt_of_silent {i u : Nat} (hi : r.limits.interval = .ofMillis i)
    (hlooks : r.looksAt n = true) (hun : u < n) (hidle : u + r.limits.interval.nanos ≤ n)
    (hn : (r.found (n + 1)).session.state ≠ .disconnected)
    (hsilent : ∀ t, u < t → t < n → r.sendsAt t = false) : r.sendsAt n = true := by
  have hopen := open_of_le hothers (Nat.le_succ n) hn
  obtain ⟨hrests, hcreated, -⟩ := rests_found hr hothers hopen
  have hlast := lastWrite_of_silent hr hothers hun hopen hsilent
  obtain ⟨-, -, hgrows⟩ := (instant_cases hothers hrests n).resolve_left hn
  refine (r.sendsAt_iff n).mpr (hgrows hlooks ?_)
  have hstart := hr.created
  rw [Session.writeIdle, Session.age_eq hcreated]
  rw [hi] at hidle ⊢
  simp only [Session.age, time, Duration.millis, Duration.ofMillis] at hlast hidle ⊢
  omega

/-- **Silence is bounded.**  An open session is silent for less than the interval and a pause. -/
lemma silence_lt {i u w : Nat} (hi : r.limits.interval = .ofMillis i) (hpos : 0 < i) (huw : u < w)
    (hw : (r.found w).session.state ≠ .disconnected)
    (hsilent : ∀ t, u < t → t < w → r.sendsAt t = false) :
    w - u < r.limits.interval.nanos + r.limits.pause.nanos := by
  by_contra hlong
  have hinterval : 0 < r.limits.interval.nanos := by
    simp only [hi, Duration.ofMillis]
    omega
  obtain ⟨n, hlooks, hidle, hnext⟩ := r.exists_looksAt (u + r.limits.interval.nanos)
  have hsends := sendsAt_of_silent hr hothers hi hlooks (by omega) hidle
    (open_of_le hothers (by omega) hw) fun t hut htn => hsilent t hut (by omega)
  rw [hsilent n (by omega) (by omega)] at hsends
  cases hsends

end Silence

/-! ### Times at which nothing happens -/

lemma instant_of_idle (hx : x.Rests v) (hothers : r.others n x.session = x.session)
    (hlook : r.looksAt n = true → r.limits.look (r.time n) x.session = x.session) :
    r.instant n x = x := by
  simp only [instant, hothers, hx.flush]
  split
  · next hlooks => rw [hlook hlooks, hx.flush]
  · rfl

/-- An end to which nothing happens for some time stays as it is. -/
lemma found_of_idle {a b : Nat} (hx : (r.found a).Rests v) (hab : a ≤ b)
    (hothers : ∀ n, a ≤ n → n < b → r.others n (r.found a).session = (r.found a).session)
    (hlook : ∀ n, a ≤ n → n < b → r.looksAt n = true →
      r.limits.look (r.time n) (r.found a).session = (r.found a).session) :
    r.found b = r.found a := by
  induction hab with
  | refl => rfl
  | @step b hab ih =>
    have hbefore := ih (fun n han hnb => hothers n han (Nat.lt_succ_of_lt hnb))
      fun n han hnb => hlook n han (Nat.lt_succ_of_lt hnb)
    rw [found, hbefore]
    exact instant_of_idle hx (hothers b hab (Nat.lt_succ_self b))
      (hlook b hab (Nat.lt_succ_self b))

/-! ## The peer -/

/-- A peer that does nothing itself stays as it is while nothing is written. -/
lemma peer_of_silent {q : Session} {a b : Nat} (hab : a ≤ b)
    (hsilent : ∀ n, a ≤ n → n < b → r.sendsAt n = false) :
    r.peer (fun _ s => s) q b = r.peer (fun _ s => s) q a := by
  induction hab with
  | refl => rfl
  | @step b hab ih =>
    simp only [peer, hsilent b hab (Nat.lt_succ_self b)]
    exact ih fun n han hnb => hsilent n han (Nat.lt_succ_of_lt hnb)

section Peer

variable {far : Nat → Session → Session} {q : Session}
  (hfar : ∀ n s, (far n s).created = s.created ∧ s.lastRead ≤ (far n s).lastRead)
include hfar

lemma created_peer (n : Nat) : (r.peer far q n).created = q.created := by
  induction n with
  | zero => rfl
  | succ n ih =>
    rw [peer]
    split
    · exact (hfar n _).1.trans ih
    · exact (hfar n _).1.trans ih

/-- A peer has noted the start, and every time at which something was written. -/
lemma age_le_lastRead_peer (hstart : q.age (r.time 0) ≤ q.lastRead) (n : Nat) :
    q.age (r.time 0) ≤ (r.peer far q n).lastRead ∧
      ∀ t < n, r.sendsAt t = true → q.age (r.time t) ≤ (r.peer far q n).lastRead := by
  induction n with
  | zero => exact ⟨hstart, fun t ht => absurd ht (Nat.not_lt_zero t)⟩
  | succ n ih =>
    rw [peer]
    by_cases hsends : r.sendsAt n = true
    · have hnow : ((far n (r.peer far q n)).recordRead (r.time n) (r.bytesAt n)).lastRead =
          q.age (r.time n) :=
        Session.age_eq ((hfar n _).1.trans (created_peer hfar n)) _
      rw [if_pos hsends, hnow]
      exact ⟨age_time_le q (Nat.zero_le n), fun t ht _ => age_time_le q (Nat.le_of_lt_succ ht)⟩
    · rw [if_neg hsends]
      refine ⟨Nat.le_trans ih.1 (hfar n _).2, fun t ht hsent => ?_⟩
      rcases Nat.lt_succ_iff_lt_or_eq.mp ht with ht | rfl
      · exact Nat.le_trans (ih.2 t ht hsent) (hfar n _).2
      · exact absurd hsent hsends

end Peer

end WatchedEnd

/-- A look that finds that something has been read in time leaves the state as it is. -/
lemma KeepAlive.state_look (k : KeepAlive) (now : Duration) (s : Session)
    (h : (s.readIdle now).nanos < k.timeout.nanos) : (k.look now s).state = s.state := by
  rw [look, if_neg (Nat.not_le_of_lt h)]
  split
  · rfl
  split
  · rcases hsend : s.sendControl .heartbeat with e | t
    · rfl
    · obtain ⟨v, -, -, -, rfl⟩ := Session.sendControl_eq_ok.mp hsend
      rfl
  · rfl

lemma pos_of_checkKeepAlive {interval timeout : UInt64}
    (h : checkKeepAlive interval timeout = .ok ()) : 0 < interval.toNat := by
  rw [checkKeepAlive] at h
  split at h
  · cases h
  · next hne => exact Nat.pos_of_ne_zero fun hzero => hne (UInt64.toNat_inj.mp hzero)

open WatchedEnd in
/-- **Heartbeats come in time.**  An end of a connection is watched with limits that have been
checked, and its tasks use the session in whatever way.  As long as the session is open, any
silence is shorter than the interval and a pause together.  If these fit into the timeout, it is
shorter than the timeout, and if a millisecond more fits, a look by a peer with the same limits
never ends the session of the peer, provided that the peer has read something at the start. -/
theorem heartbeats_in_time (interval timeout : UInt64) {r : WatchedEnd} {v : ProtocolVersion}
    (hlimits : r.limits =
      { interval := .ofMillis interval.toNat, timeout := .ofMillis timeout.toNat })
    (hchecked : checkKeepAlive interval timeout = .ok ()) (hr : r.Starts v)
    (hothers : ∀ n s, Session.Uses s (r.others n s)) :
    (∀ u w, u < w → (r.found w).session.state ≠ .disconnected →
      (∀ t, u < t → t < w → r.sendsAt t = false) →
        w - u < r.limits.interval.nanos + r.limits.pause.nanos ∧
          (r.limits.interval.nanos + r.limits.pause.nanos ≤ r.limits.timeout.nanos →
            w - u < r.limits.timeout.nanos)) ∧
    (r.limits.interval.nanos + r.limits.pause.nanos + 1000000 ≤ r.limits.timeout.nanos →
      ∀ far q, (∀ n s, (far n s).created = s.created ∧ s.lastRead ≤ (far n s).lastRead) →
        q.age (r.time 0) ≤ q.lastRead → ∀ n, (r.found n).session.state ≠ .disconnected →
          (r.limits.look (r.time n) (r.peer far q n)).state = (r.peer far q n).state) := by
  have hi : r.limits.interval = .ofMillis interval.toNat := by rw [hlimits]
  have hpos := pos_of_checkKeepAlive hchecked
  refine ⟨fun u w huw hw hsilent => ?_, fun hfits far q hfar hstart n hn => ?_⟩
  · have hlt := silence_lt hr hothers hi hpos huw hw hsilent
    exact ⟨hlt, Nat.lt_of_lt_of_le hlt⟩
  · obtain ⟨hfirst, hlater⟩ := age_le_lastRead_peer hfar hstart n
    have hread : ∃ t, n - t < r.limits.interval.nanos + r.limits.pause.nanos ∧
        q.age (r.time t) ≤ (r.peer far q n).lastRead := by
      by_cases hsoon : n < r.limits.interval.nanos + r.limits.pause.nanos
      · exact ⟨0, by rwa [Nat.sub_zero], hfirst⟩
      -- otherwise the end would have been silent for too long
      by_contra hnone
      have hpause := r.limits.pause_pos
      have hlong := silence_lt hr hothers hi hpos
        (u := n - (r.limits.interval.nanos + r.limits.pause.nanos)) (by omega) hn
        fun t hut htn => by
          by_contra hsent
          exact hnone ⟨t, by omega, hlater t htn (by simpa using hsent)⟩
      omega
    obtain ⟨t, hnt, ht⟩ := hread
    refine r.limits.state_look _ _ ?_
    rw [Session.readIdle, Session.age_eq (created_peer hfar n)]
    have htimeout : r.limits.timeout = .ofMillis timeout.toNat := by rw [hlimits]
    rw [htimeout] at hfits ⊢
    simp only [Session.age, time, Duration.millis, Duration.ofMillis] at ht hfits ⊢
    omega

open WatchedEnd in
/-- The limits that a client has by default, at an end that sends one request. -/
theorem heartbeats_in_time_default :
    let settings : ClientSettings := {}
    let session : Session :=
      { id := "s", role := .client, remote := .v4 127 0 0 1 9000, version := some .newest
        state := .active }
    let r : WatchedEnd :=
      { limits :=
          { interval := .ofMillis settings.keepAliveInterval.toNat
            timeout := .ofMillis settings.keepAliveTimeout.toNat }
        start := 0
        others := fun n s =>
          if n = 3 then (s.perform (.sendFrame (.make .newest .request 1 []))).1
          else s.recordRead ⟨n⟩ 14
        session }
    checkKeepAlive settings.keepAliveInterval settings.keepAliveTimeout = .ok () ∧
      r.Starts .newest ∧ (∀ n s, Session.Uses s (r.others n s)) ∧ r.sendsAt 3 = true ∧
      (∀ u w, u < w → (r.found w).session.state ≠ .disconnected →
        (∀ t, u < t → t < w → r.sendsAt t = false) → w - u < 6250000000) ∧
      ∀ n, (r.found n).session.state ≠ .disconnected →
        (r.limits.look (r.time n) (r.peer (fun _ s => s) session n)).state =
          (r.peer (fun _ s => s) session n).state := by
  intro settings session r
  have hr : r.Starts .newest :=
    ⟨⟨Or.inl rfl, ⟨rfl, by decide, rfl⟩, by decide, rfl⟩, Nat.le_refl 0, Nat.zero_le _⟩
  have hothers (n : Nat) (s : Session) : s.Uses (r.others n s) := by
    by_cases hn : n = 3
    · simp only [r, hn, if_true]
      exact .perform s _
    · simp only [r, hn, if_false]
      exact .recordRead s ⟨n⟩ 14
  have hchecked : checkKeepAlive settings.keepAliveInterval settings.keepAliveTimeout = .ok () :=
    rfl
  obtain ⟨hsilence, hpeer⟩ := heartbeats_in_time settings.keepAliveInterval
    settings.keepAliveTimeout (r := r) rfl hchecked hr hothers
  have hsum : r.limits.interval.nanos + r.limits.pause.nanos = 6250000000 := by decide +kernel
  rw [hsum] at hsilence
  exact ⟨hchecked, hr, hothers, by decide +kernel,
    fun u w huw hw hsilent => (hsilence u w huw hw hsilent).1,
    hpeer (by decide) _ session (fun _ _ => ⟨rfl, Nat.le_refl _⟩) (by decide)⟩

open WatchedEnd in
/-- An interval of nine milliseconds and a timeout of ten pass the check.  An end reads and sends
something after seven milliseconds.  Its looks come after ten and fifteen milliseconds, and at
neither of them has the interval passed: it is silent for at least ten milliseconds, and after
seventeen a peer with the same limits takes it for dead. -/
theorem heartbeat_too_late :
    let settings : ClientSettings := { keepAliveInterval := 9, keepAliveTimeout := 10 }
    let session : Session :=
      { id := "s", role := .client, remote := .v4 127 0 0 1 9000, version := some .newest
        state := .active }
    let r : WatchedEnd :=
      { limits :=
          { interval := .ofMillis settings.keepAliveInterval.toNat
            timeout := .ofMillis settings.keepAliveTimeout.toNat }
        start := 0
        others := fun n s =>
          if n = 7000000 then
            ((s.recordRead ⟨n⟩ 14).perform (.sendFrame (.make .newest .request 1 []))).1
          else s
        session }
    let q := r.peer (fun _ s => s) session 17000000
    settings.validate = .ok () ∧ r.sendsAt 7000000 = true ∧
      (∀ t, 7000000 < t → t < 17000001 → r.sendsAt t = false) ∧
      r.limits.timeout.nanos ≤ 17000001 - 7000000 ∧
      (r.found 17000001).session.state = .active ∧ q.state = .active ∧
      (r.limits.look (r.time 17000000) q).state = .disconnected := by
  intro settings session r q
  have hlooks (n : Nat) (h : r.looksAt n = true) : n % 5000000 = 0 := by
    rw [looksAt, show r.limits.pause.nanos = 5000000 by decide +kernel] at h
    simpa using h
  -- nothing happens before the request
  have hfirst : (r.found 0).Rests .newest := ⟨Or.inl rfl, ⟨rfl, by decide, rfl⟩, by decide, rfl⟩
  have hbefore (n : Nat) (hn : n ≤ 7000000) : r.found n = { session } := by
    refine found_of_idle hfirst (Nat.zero_le _) (fun m _ hm => ?_) fun m _ hm hlook => ?_
    · simp [r, Nat.ne_of_lt (Nat.lt_of_lt_of_le hm hn)]
    · have hlooked := hlooks m hlook
      obtain rfl | rfl : m = 0 ∨ m = 5000000 := by omega
      · decide +kernel
      · decide +kernel
  -- and nothing after it until the look after twenty milliseconds
  have hrequest : r.found 7000001 = r.instant 7000000 { session } := by
    rw [found, hbefore 7000000 (Nat.le_refl _)]
  have hrests : (r.found 7000001).Rests .newest := by
    rw [hrequest]
    exact ⟨Or.inl (by decide +kernel),
      ⟨by decide +kernel, by decide +kernel, by decide +kernel⟩,
      by decide +kernel, by decide +kernel⟩
  have hafter (n : Nat) (hfrom : 7000001 ≤ n) (hn : n ≤ 17000001) :
      r.found n = r.found 7000001 := by
    refine found_of_idle hrests hfrom (fun m hm _ => ?_) fun m hm hm' hlook => ?_
    · simp [r, Nat.ne_of_gt hm]
    · have hlooked := hlooks m hlook
      rw [hrequest]
      obtain rfl | rfl : m = 10000000 ∨ m = 15000000 := by omega
      · decide +kernel
      · decide +kernel
  have hsilent (n : Nat) (h : r.found (n + 1) = r.found n) : r.sendsAt n = false := by
    rw [sendsAt, bytesAt, h, Nat.sub_self]
    rfl
  have hbytes : r.bytesAt 7000000 = 14 := by
    rw [bytesAt, hrequest, hbefore 7000000 (Nat.le_refl _)]
    decide +kernel
  have hsends : r.sendsAt 7000000 = true := by
    rw [sendsAt, hbytes]
    rfl
  have hsilence (n : Nat) (hfrom : 7000000 < n) (hn : n < 17000001) : r.sendsAt n = false := by
    refine hsilent n ?_
    rw [hafter (n + 1) (Nat.le_succ_of_le hfrom) hn, hafter n hfrom (Nat.le_of_lt hn)]
  have hpeer : q = session.recordRead (r.time 7000000) 14 := by
    have hread : r.peer (fun _ s => s) session 7000001 =
        session.recordRead (r.time 7000000) 14 := by
      rw [peer, if_pos hsends, hbytes, peer_of_silent (Nat.zero_le _) fun n _ hn => hsilent n ?_]
      · rfl
      · rw [hbefore (n + 1) hn, hbefore n (Nat.le_of_lt hn)]
    rw [← hread]
    exact peer_of_silent (by decide) fun n hfrom hn => hsilence n hfrom (Nat.lt_succ_of_lt hn)
  refine ⟨by decide +kernel, hsends, hsilence, by decide +kernel, ?_, ?_, ?_⟩
  · rw [hafter 17000001 (by decide) (Nat.le_refl _), hrequest]
    decide +kernel
  · rw [hpeer]
    rfl
  · rw [hpeer]
    decide +kernel

end RemoteCall
