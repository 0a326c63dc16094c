/-
# What the writer of a session writes

The frames that have been queued are those that have been written, the one at hand, and those that
still wait.  This account holds in every stage of the writer, whatever the tasks of the session do
between its steps; from it follow the order of the bytes, that the writer stops at a DISCONNECT,
and that it leaves nothing behind.
-/
import Mathlib.Data.List.Infix
import RemoteCall.Proofs.Lifecycle
import RemoteCall.Session.Writing

namespace RemoteCall

/-! ## Bytes -/

namespace Frame

lemma wire_eq_of_encode {f : Frame} {bytes : List UInt8} (h : f.encode = .ok bytes) :
    f.wire = bytes := by
  simp only [wire, h]

@[simp] lemma wireAll_nil : wireAll [] = [] := rfl

@[simp] lemma wireAll_append (front rest : List Frame) :
    wireAll (front ++ rest) = wireAll front ++ wireAll rest := List.flatMap_append

@[simp] lemma wireAll_cons (f : Frame) (rest : List Frame) :
    wireAll (f :: rest) = f.wire ++ wireAll rest := List.flatMap_cons

@[simp] lemma wireAll_singleton (f : Frame) : wireAll [f] = f.wire := List.flatMap_singleton ..

lemma wireAll_prefix {front frames : List Frame} (h : front <+: frames) :
    wireAll front <+: wireAll frames := by
  obtain ⟨rest, rfl⟩ := h
  rw [wireAll_append]
  exact List.prefix_append _ _

/-- Frames among which no DISCONNECT comes before the last one do not go past a DISCONNECT. -/
lemma prefix_of_disconnect {frames seen front rest : List Frame} {f : Frame}
    (hseen : seen <+: frames) (hplain : ∀ g ∈ seen.dropLast, g.type ≠ .disconnect)
    (hframes : frames = front ++ f :: rest) (hf : f.type = .disconnect) :
    seen <+: front ++ [f] := by
  have hfront : front ++ [f] <+: frames := ⟨rest, by simp [hframes]⟩
  rcases List.prefix_or_prefix_of_prefix hseen hfront with h | ⟨more, rfl⟩
  · exact h
  rcases eq_or_ne more [] with rfl | hmore
  · simp
  · rw [List.dropLast_append_of_ne_nil hmore] at hplain
    exact absurd hf (hplain f (by simp))

end Frame

/-! ## The tasks -/

lemma SessionTask.Step.passes {t t' : SessionTask} {s s' : Session} (h : Step t s t' s') :
    s.Passes s' ∧ s.queue <+: s'.queue := by
  cases h with
  | rests | looks => exact ⟨.refl s, List.prefix_rfl⟩
  | moves next _ _ hmay =>
    refine ⟨⟨fun _ hv => hv, rfl, fun hover => ?_, Or.inl rfl⟩, List.prefix_rfl⟩
    rw [SessionState.mayBecome_of_isTerminal (by rw [hover]; rfl)] at hmay
    cases hmay
  | ends => exact ⟨⟨fun _ hv => hv, rfl, fun _ => rfl, Or.inl rfl⟩, List.prefix_rfl⟩
  | settles v _ _ hnone =>
    refine ⟨⟨fun w hw => ?_, rfl, fun hover => hover, Or.inl rfl⟩, List.prefix_rfl⟩
    cases hnone.symm.trans hw
  | pushes => exact ⟨.of_eq ⟨rfl, rfl, rfl, rfl⟩, List.prefix_append _ _⟩

/-- A frame of a session is written whole, or a part of it is written and the writer stops. -/
lemma Writer.writeOne_cases (w : Writer) (now : Duration) (s : Session) (f : Frame)
    (outcome : WriteOutcome) (next : WriterStage) :
    ((w.writeOne now s f outcome next).1.stage = .shutting .failed ∧
      ((∃ n, outcome = .cut n) ∨ ∀ bytes, f.encode ≠ .ok bytes) ∧
      ∃ part, part <+: f.wire ∧
        (w.writeOne now s f outcome next).1.sink.written = w.sink.written ++ part) ∨
    (w.writeOne now s f outcome next).1.stage = next ∧
      (w.writeOne now s f outcome next).1.sink.written = w.sink.written ++ f.wire := by
  rcases hf : f.encode with e | bytes
  · simp only [writeOne, hf]
    exact Or.inl ⟨rfl, Or.inr fun bytes => by simp, [], List.nil_prefix, (List.append_nil _).symm⟩
  · cases outcome with
    | whole =>
      simp only [writeOne, hf, Sink.write, Frame.wire_eq_of_encode hf]
      exact Or.inr ⟨trivial, trivial⟩
    | cut n =>
      simp only [writeOne, hf, Sink.write, Frame.wire_eq_of_encode hf]
      exact Or.inl ⟨trivial, Or.inl ⟨n, rfl⟩, bytes.take n, List.take_prefix n bytes, rfl⟩

/-- The writer has stopped, and why. -/
def Writer.Stopped (w : Writer) (why : WriterEnd) : Prop :=
  w.stage = .shutting why ∨ w.stage = .finished why

lemma Writer.Stopped.isStopping {w : Writer} {why : WriterEnd} (h : w.Stopped why) :
    w.isStopping = true := by
  rcases h with h | h <;> simp only [Writer.isStopping, h]

/-- A writer stops once. -/
lemma Writer.Stopped.unique {w : Writer} {why why' : WriterEnd} (h : w.Stopped why)
    (h' : w.stage = .finished why') : why = why' := by
  rcases h with h | h
  · cases h.symm.trans h'
  · exact WriterStage.finished.inj (h.symm.trans h')

/-- A writer that has stopped writes nothing more. -/
lemma Writer.Stopped.step {w : Writer} {why : WriterEnd} (h : w.Stopped why) (now : Duration)
    (s : Session) (outcome : WriteOutcome) :
    (w.step now s outcome).1.Stopped why ∧
      (w.step now s outcome).1.sink.written = w.sink.written := by
  rcases h with h | h
  · simp only [Writer.step, h]
    exact ⟨Or.inr rfl, trivial⟩
  · simp only [Writer.step, h]
    exact ⟨Or.inr h, trivial⟩

namespace WrittenSession

variable {x : WrittenSession} {m : Move} {before after moves : List Move}
  {early done : List Frame} {p q : Prop}

lemma run_append (x : WrittenSession) (before after : List Move) :
    x.run (before ++ after) = (x.run before).run after := List.foldl_append

/-- What holds of a session and its writer at any time: the calls fit, and the writer stops only
when the session is over. -/
structure Sound (x : WrittenSession) : Prop where
  fits : ∀ t ∈ x.shared.tasks, t.Fits
  heeds : x.writer.Heeds x.shared.session

/-- What the tasks do: the session passes on, and what they queue is written down. -/
lemma Sound.share (h : x.Sound) {m : SharedSession.Move}
    (hm : (∃ call, m = .make call) ∨ ∃ i, m = .goOn i) :
    (x.share m).Sound ∧ x.shared.session.Passes (x.share m).shared.session ∧
      ∃ frames, (x.share m).shared.session.queue = x.shared.session.queue ++ frames ∧
        (x.share m).queued = x.queued ++ frames := by
  have hsession : x.shared.session.Passes (x.shared.next m).session ∧
      x.shared.session.queue <+: (x.shared.next m).session.queue ∧
      ∀ t ∈ (x.shared.next m).tasks, t.Fits := by
    rcases hm with ⟨call, rfl⟩ | ⟨i, rfl⟩
    · exact ⟨.refl _, List.prefix_rfl, SessionTask.fits_concat h.fits call⟩
    · rcases ht : x.shared.tasks[i]? with _ | t
      · rw [SharedSession.next_goOn_of_none ht]
        exact ⟨.refl _, List.prefix_rfl, h.fits⟩
      · have hstep := t.step_step (h.fits t (List.mem_of_getElem? ht)) x.shared.session
        rw [SharedSession.next_goOn ht]
        exact ⟨hstep.passes.1, hstep.passes.2, SessionTask.fits_set h.fits ht hstep⟩
  obtain ⟨hpasses, ⟨frames, hframes⟩, hfits⟩ := hsession
  refine ⟨⟨hfits, h.heeds.passes hpasses⟩, hpasses, frames, hframes.symm, ?_⟩
  simp [WrittenSession.share, ← hframes]

lemma Sound.write (h : x.Sound) (now : Duration) (outcome : WriteOutcome) :
    (x.next (.write now outcome)).Sound :=
  ⟨h.fits, (Writer.step_passes h.heeds now outcome).2⟩

lemma Sound.next (h : x.Sound) (m : Move) : (x.next m).Sound := by
  cases m with
  | make call => exact (h.share (Or.inl ⟨call, rfl⟩)).1
  | goOn i => exact (h.share (Or.inr ⟨i, rfl⟩)).1
  | write now outcome => exact h.write now outcome

lemma Sound.run (h : x.Sound) (moves : List Move) : (x.run moves).Sound := by
  induction moves generalizing x with
  | nil => exact h
  | cons m moves ih => exact ih (h.next m)

/-! ## The account -/

/-- What the writer has written of the frames that have been queued, `done` being those that it has
written whole before the one at hand.  If it has stopped because nothing was left, those that were
queued `early` are among them.  A write fails only if `q` holds. -/
inductive Account (early : List Frame) (q : Prop) (x : WrittenSession) (done : List Frame) : Prop
  /-- No frame is at hand. -/
  | looking (hstage : x.writer.stage = .polling ∨ x.writer.stage = .checking ∨
        x.writer.stage = .emptying)
      (hqueued : x.queued = done ++ x.shared.session.queue)
      (hwritten : x.writer.sink.written = Frame.wireAll done)
  /-- A frame is at hand. -/
  | busy (f : Frame) (hstage : x.writer.stage = .writing f ∨ x.writer.stage = .flushing f)
      (hqueued : x.queued = done ++ f :: x.shared.session.queue)
      (hwritten : x.writer.sink.written = Frame.wireAll done)
  /-- A frame could not be written, or not the whole of it. -/
  | failed (f : Frame) (rest : List Frame) (part : List UInt8) (hstage : x.writer.Stopped .failed)
      (hcause : q ∨ ∀ bytes, f.encode ≠ .ok bytes) (hqueued : x.queued = done ++ f :: rest)
      (hpart : part <+: f.wire)
      (hwritten : x.writer.sink.written = Frame.wireAll done ++ part)
  /-- A DISCONNECT has been written. -/
  | parted (f : Frame) (rest : List Frame) (hstage : x.writer.Stopped .parted)
      (htype : f.type = .disconnect) (hqueued : x.queued = done ++ f :: rest)
      (hwritten : x.writer.sink.written = Frame.wireAll (done ++ [f]))
  /-- The session was over and nothing was left. -/
  | emptied (rest : List Frame) (hstage : x.writer.Stopped .emptied) (hearly : early <+: done)
      (hqueued : x.queued = done ++ rest)
      (hwritten : x.writer.sink.written = Frame.wireAll done)

/-- The account of a writer that has come upon a DISCONNECT in the end only if `p` holds. -/
structure Accounted (early : List Frame) (p q : Prop) (x : WrittenSession) (done : List Frame) :
    Prop where
  queued : early <+: x.queued
  plain : ∀ f ∈ done, f.type = .disconnect → p
  account : Account early q x done

/-- What the tasks do leaves the account as it is. -/
lemma Accounted.share (h : Accounted early p q x done) (hx : x.Sound) {m : SharedSession.Move}
    (hm : (∃ call, m = .make call) ∨ ∃ i, m = .goOn i) : Accounted early p q (x.share m) done := by
  obtain ⟨-, -, frames, hqueue, hqueued'⟩ := hx.share hm
  have hwriter : (x.share m).writer = x.writer := rfl
  refine ⟨?_, h.plain, ?_⟩
  · rw [hqueued']
    exact h.queued.trans (List.prefix_append _ _)
  cases h.account with
  | looking hstage hqueued hwritten =>
    refine .looking hstage ?_ hwritten
    rw [hqueued', hqueue, hqueued, List.append_assoc]
  | busy f hstage hqueued hwritten =>
    refine .busy f hstage ?_ hwritten
    rw [hqueued', hqueue, hqueued, List.append_assoc, List.cons_append]
  | failed f rest part hstage hcause hqueued hpart hwritten =>
    refine .failed f (rest ++ frames) part hstage hcause ?_ hpart hwritten
    rw [hqueued', hqueued, List.append_assoc, List.cons_append]
  | parted f rest hstage htype hqueued hwritten =>
    refine .parted f (rest ++ frames) hstage htype ?_ hwritten
    rw [hqueued', hqueued, List.append_assoc, List.cons_append]
  | emptied rest hstage hearly hqueued hwritten =>
    refine .emptied (rest ++ frames) hstage hearly ?_ hwritten
    rw [hqueued', hqueued, List.append_assoc]

/-- The account after a write. -/
lemma Accounted.write_frame {y : WrittenSession} {w : Writer} {now : Duration} {s : Session}
    {f : Frame} {outcome : WriteOutcome} {next : WriterStage} (hearly : early <+: y.queued)
    (hplain : ∀ g ∈ done, g.type = .disconnect → p)
    (hqueued : y.queued = done ++ f :: y.shared.session.queue)
    (hwritten : w.sink.written = Frame.wireAll done)
    (hy : y.writer = (w.writeOne now s f outcome next).1) (hq : (∃ n, outcome = .cut n) → q)
    (hnext : ((next = .polling ∨ next = .emptying) ∧ (f.type = .disconnect → p)) ∨
      next = .shutting .parted ∧ f.type = .disconnect) :
    ∃ done, Accounted early p q y done := by
  rcases w.writeOne_cases now s f outcome next with
    ⟨hstage, hcause, part, hpart, hsink⟩ | ⟨hstage, hsink⟩ <;> rw [← hy] at hstage hsink
  · refine ⟨done, hearly, hplain,
      .failed f _ part (Or.inl hstage) (hcause.imp_left hq) hqueued hpart ?_⟩
    rw [hsink, hwritten]
  have hdone : y.writer.sink.written = Frame.wireAll (done ++ [f]) := by
    rw [hsink, hwritten, Frame.wireAll_append, Frame.wireAll_singleton]
  rcases hnext with ⟨hgoes, hf⟩ | ⟨rfl, hf⟩
  · refine ⟨done ++ [f], hearly, fun g hg => ?_, .looking ?_ ?_ hdone⟩
    · rcases List.mem_append.mp hg with hg | hg
      · exact hplain g hg
      · exact List.mem_singleton.mp hg ▸ hf
    · rcases hgoes with rfl | rfl
      · exact Or.inl hstage
      · exact Or.inr (Or.inr hstage)
    · rw [hqueued, List.append_assoc, List.singleton_append]
  · exact ⟨done, hearly, hplain, .parted f _ (Or.inl hstage) hf hqueued hdone⟩

lemma next_write {now : Duration} {outcome : WriteOutcome} {r : Writer × Session}
    (h : x.writer.step now x.shared.session outcome = r) :
    x.next (.write now outcome) =
      { x with writer := r.1, shared := { x.shared with session := r.2 } } := by
  simp only [next, h]

/-- A writer that has no frame at hand looks for one, or finds that nothing is left. -/
lemma Accounted.look (h : Accounted early p q x done)
    (hstage : x.writer.stage = .polling ∨ x.writer.stage = .checking ∨ x.writer.stage = .emptying)
    (hqueued : x.queued = done ++ x.shared.session.queue)
    (hwritten : x.writer.sink.written = Frame.wireAll done) (now : Duration)
    (outcome : WriteOutcome) : Accounted early p q (x.next (.write now outcome)) done := by
  rcases hstage with hw | hw | hw
  · rcases hq : x.shared.session.queue with _ | ⟨f, rest⟩
    · rw [next_write (r := (x.writer.goTo .checking, x.shared.session))
        (by simp only [Writer.step, hw, hq])]
      exact ⟨h.queued, h.plain, .looking (Or.inr (Or.inl rfl)) hqueued hwritten⟩
    · rw [next_write (r := (x.writer.goTo (.writing f), { x.shared.session with queue := rest }))
        (by simp only [Writer.step, hw, hq])]
      rw [hq] at hqueued
      exact ⟨h.queued, h.plain, .busy f (Or.inl rfl) hqueued hwritten⟩
  · by_cases hover : x.shared.session.state.isTerminal = true
    · rw [next_write (r := (x.writer.goTo .emptying, x.shared.session))
        (by simp only [Writer.step, hw, if_pos hover])]
      exact ⟨h.queued, h.plain, .looking (Or.inr (Or.inr rfl)) hqueued hwritten⟩
    · rw [next_write (r := (x.writer.goTo .polling, x.shared.session))
        (by simp only [Writer.step, hw, if_neg hover])]
      exact ⟨h.queued, h.plain, .looking (Or.inl rfl) hqueued hwritten⟩
  · rcases hq : x.shared.session.queue with _ | ⟨f, rest⟩
    · rw [next_write (r := (x.writer.goTo (.shutting .emptied), x.shared.session))
        (by simp only [Writer.step, hw, hq])]
      -- the queue is empty, so everything that has been queued is written
      have hall : x.queued = done := by rw [hqueued, hq, List.append_nil]
      exact ⟨h.queued, h.plain,
        .emptied [] (Or.inl rfl) (hall ▸ h.queued) (by simp [hall]) hwritten⟩
    · rw [next_write (r := (x.writer.goTo (.flushing f), { x.shared.session with queue := rest }))
        (by simp only [Writer.step, hw, hq])]
      rw [hq] at hqueued
      exact ⟨h.queued, h.plain, .busy f (Or.inr rfl) hqueued hwritten⟩

/-- A writer that has a frame at hand writes it. -/
lemma Accounted.write_busy (h : Accounted early p q x done) {f : Frame}
    (hstage : x.writer.stage = .writing f ∨ x.writer.stage = .flushing f)
    (hqueued : x.queued = done ++ f :: x.shared.session.queue)
    (hwritten : x.writer.sink.written = Frame.wireAll done)
    (hp : ∀ f, x.writer.stage = .flushing f → f.type = .disconnect → p) (now : Duration)
    {outcome : WriteOutcome} (hq : (∃ n, outcome = .cut n) → q) :
    ∃ done, Accounted early p q (x.next (.write now outcome)) done := by
  rcases hstage with hw | hw
  · by_cases hf : f.type = .disconnect
    · have hstep : x.writer.step now x.shared.session outcome =
          ((x.writer.writeOne now x.shared.session f outcome (.shutting .parted)).1,
            (x.writer.writeOne now x.shared.session f outcome (.shutting .parted)).2.closed) := by
        simp only [Writer.step, hw, hf]
      rw [next_write hstep]
      refine Accounted.write_frame h.queued h.plain (f := f) ?_ hwritten rfl hq (Or.inr ⟨rfl, hf⟩)
      simpa only [Session.queue_closed, Writer.queue_writeOne] using hqueued
    · have hstep : x.writer.step now x.shared.session outcome =
          x.writer.writeOne now x.shared.session f outcome .polling := by
        simp only [Writer.step, hw]
      rw [next_write hstep]
      refine Accounted.write_frame h.queued h.plain (f := f) ?_ hwritten rfl hq
        (Or.inl ⟨Or.inl rfl, fun hdisconnect => absurd hdisconnect hf⟩)
      simpa only [Writer.queue_writeOne] using hqueued
  · have hstep : x.writer.step now x.shared.session outcome =
        x.writer.writeOne now x.shared.session f outcome .emptying := by
      simp only [Writer.step, hw]
    rw [next_write hstep]
    refine Accounted.write_frame h.queued h.plain (f := f) ?_ hwritten rfl hq
      (Or.inl ⟨Or.inr rfl, hp f hw⟩)
    simpa only [Writer.queue_writeOne] using hqueued

/-- **A step of the writer** keeps the account. -/
lemma Accounted.write (h : Accounted early p q x done)
    (hp : ∀ f, x.writer.stage = .flushing f → f.type = .disconnect → p) (now : Duration)
    {outcome : WriteOutcome} (hq : (∃ n, outcome = .cut n) → q) :
    ∃ done, Accounted early p q (x.next (.write now outcome)) done := by
  cases h.account with
  | looking hstage hqueued hwritten => exact ⟨done, h.look hstage hqueued hwritten now outcome⟩
  | busy f hstage hqueued hwritten => exact h.write_busy hstage hqueued hwritten hp now hq
  | failed f rest part hstage hcause hqueued hpart hwritten =>
    obtain ⟨hstopped, hsink⟩ := hstage.step now x.shared.session outcome
    exact ⟨done, h.queued, h.plain,
      .failed f rest part hstopped hcause hqueued hpart (hsink.trans hwritten)⟩
  | parted f rest hstage htype hqueued hwritten =>
    obtain ⟨hstopped, hsink⟩ := hstage.step now x.shared.session outcome
    exact ⟨done, h.queued, h.plain, .parted f rest hstopped htype hqueued (hsink.trans hwritten)⟩
  | emptied rest hstage hearly hqueued hwritten =>
    obtain ⟨hstopped, hsink⟩ := hstage.step now x.shared.session outcome
    exact ⟨done, h.queued, h.plain, .emptied rest hstopped hearly hqueued (hsink.trans hwritten)⟩

lemma Accounted.next (h : Accounted early p q x done) (hx : x.Sound)
    (hp : ∀ f, x.writer.stage = .flushing f → f.type = .disconnect → p) {m : Move}
    (hq : ∀ now n, m = .write now (.cut n) → q) : ∃ done, Accounted early p q (x.next m) done := by
  cases m with
  | make call => exact ⟨done, h.share hx (Or.inl ⟨call, rfl⟩)⟩
  | goOn i => exact ⟨done, h.share hx (Or.inr ⟨i, rfl⟩)⟩
  | write now outcome => exact h.write hp now fun ⟨n, hn⟩ => hq now n (by rw [hn])

lemma Accounted.run (h : Accounted early p q x done) (hx : x.Sound) (moves : List Move)
    (hp : ∀ before, before <+: moves → ∀ f, (x.run before).writer.stage = .flushing f →
      f.type = .disconnect → p)
    (hq : ∀ now n, .write now (.cut n) ∈ moves → q) :
    ∃ done, Accounted early p q (x.run moves) done := by
  induction moves generalizing x done with
  | nil => exact ⟨done, h⟩
  | cons m moves ih =>
    obtain ⟨done, hnext⟩ := h.next hx (hp [] List.nil_prefix) (m := m) fun now n hm =>
      hq now n (hm ▸ List.mem_cons_self)
    exact ih hnext (hx.next m)
      (fun before hbefore => hp (m :: before) (List.cons_prefix_cons.mpr ⟨rfl, hbefore⟩))
      fun now n hm => hq now n (List.mem_cons_of_mem m hm)

/-! ### What the account says -/

/-- What has been written are bytes of the frames that the writer has seen. -/
lemma Accounted.exists_seen (h : Accounted early p q x done) :
    ∃ seen, seen <+: x.queued ∧ x.writer.sink.written <+: Frame.wireAll seen ∧
      ∀ f ∈ seen.dropLast, f.type = .disconnect → p := by
  cases h.account with
  | looking _ hqueued hwritten | busy _ _ hqueued hwritten | emptied _ _ _ hqueued hwritten =>
    refine ⟨done, ?_, ?_, fun f hf => h.plain f (List.dropLast_subset done hf)⟩
    · rw [hqueued]
      exact List.prefix_append _ _
    · exact hwritten ▸ List.prefix_rfl
  | failed f rest part _ _ hqueued hpart hwritten =>
    refine ⟨done ++ [f], ⟨rest, by simp [hqueued]⟩, ?_, by simpa using h.plain⟩
    rw [hwritten, Frame.wireAll_append, Frame.wireAll_singleton]
    exact (List.prefix_append_right_inj _).mpr hpart
  | parted f rest _ _ hqueued hwritten =>
    exact ⟨done ++ [f], ⟨rest, by simp [hqueued]⟩, hwritten ▸ List.prefix_rfl,
      by simpa using h.plain⟩

/-- Why a writer has stopped. -/
lemma Accounted.finished (h : Accounted early p q x done) {why : WriterEnd}
    (hfinished : x.writer.stage = .finished why) :
    (why = .failed ∧ (q ∨ ∃ f ∈ x.queued, ∀ bytes, f.encode ≠ .ok bytes)) ∨
    (why = .parted ∧ ∃ front f rest, x.queued = front ++ f :: rest ∧ f.type = .disconnect ∧
      x.writer.sink.written = Frame.wireAll (front ++ [f])) ∨
    why = .emptied ∧ Frame.wireAll early <+: x.writer.sink.written := by
  cases h.account with
  | looking hstage | busy f hstage => simp [hfinished] at hstage
  | failed f rest part hstage hcause hqueued =>
    exact Or.inl ⟨(hstage.unique hfinished).symm,
      hcause.imp_right fun hlong => ⟨f, by simp [hqueued], hlong⟩⟩
  | parted f rest hstage htype hqueued hwritten =>
    exact Or.inr (Or.inl ⟨(hstage.unique hfinished).symm, done, f, rest, hqueued, htype, hwritten⟩)
  | emptied rest hstage hearly hqueued hwritten =>
    exact Or.inr (Or.inr ⟨(hstage.unique hfinished).symm, hwritten ▸ Frame.wireAll_prefix hearly⟩)

/-- The account can be started again as long as the session is open. -/
lemma Accounted.restart (h : Accounted early p q x done) (hx : x.Sound)
    (hopen : x.shared.session.state ≠ .disconnected) : Accounted x.queued p q x done := by
  refine ⟨List.prefix_rfl, h.plain, ?_⟩
  cases h.account with
  | looking hstage hqueued hwritten => exact .looking hstage hqueued hwritten
  | busy f hstage hqueued hwritten => exact .busy f hstage hqueued hwritten
  | failed f rest part hstage hcause hqueued hpart hwritten =>
    exact .failed f rest part hstage hcause hqueued hpart hwritten
  | parted f rest hstage htype hqueued hwritten =>
    exact .parted f rest hstage htype hqueued hwritten
  | emptied rest hstage => exact absurd (hx.heeds hstage.isStopping) hopen

end WrittenSession

open WrittenSession in
/-- **The writer of a session keeps the order of the frames.**  Whatever the tasks of the session
do between its steps, and whether or not a write fails, what it has written is the beginning of
what has been queued.  If it comes upon no DISCONNECT among the frames that were left when the
session was over, it writes nothing after a DISCONNECT.  It stops for one of three reasons: a write
has failed or a frame was too long to be written; it has written a DISCONNECT; or it has written
every frame that was queued before the session was over. -/
theorem writer_keeps_order {x : WrittenSession} (htasks : x.shared.tasks = [])
    (hwriter : x.writer = {}) (hqueued : x.queued = x.shared.session.queue) (moves : List Move) :
    (x.run moves).writer.sink.written <+: Frame.wireAll (x.run moves).queued ∧
      ((∀ before, before <+: moves → ∀ f, (x.run before).writer.stage = .flushing f →
          f.type ≠ .disconnect) →
        ∀ front f rest, (x.run moves).queued = front ++ f :: rest → f.type = .disconnect →
          (x.run moves).writer.sink.written <+: Frame.wireAll (front ++ [f])) ∧
      ((x.run moves).writer.stage = .finished .failed →
        (∃ now n, .write now (.cut n) ∈ moves) ∨
          ∃ f ∈ (x.run moves).queued, ∀ bytes, f.encode ≠ .ok bytes) ∧
      ((x.run moves).writer.stage = .finished .parted →
        ∃ front f rest, (x.run moves).queued = front ++ f :: rest ∧ f.type = .disconnect ∧
          (x.run moves).writer.sink.written = Frame.wireAll (front ++ [f])) ∧
      ((x.run moves).writer.stage = .finished .emptied →
        ∀ before, before <+: moves → (x.run before).shared.session.state ≠ .disconnected →
          Frame.wireAll (x.run before).queued <+: (x.run moves).writer.sink.written) := by
  have hx : x.Sound := ⟨by simp [htasks], by simp [hwriter, Writer.Heeds, Writer.isStopping]⟩
  have hstart (p q : Prop) : Accounted [] p q x [] :=
    ⟨List.nil_prefix, by simp, .looking (by simp [hwriter]) hqueued (by simp [hwriter])⟩
  obtain ⟨done, hdone⟩ := (hstart True (∃ now n, Move.write now (.cut n) ∈ moves)).run hx moves
    (fun _ _ _ _ _ => trivial) fun now n hm => ⟨now, n, hm⟩
  refine ⟨?_, fun hflush front f rest hfront hf => ?_, fun hstage => ?_, fun hstage => ?_,
    fun hstage before hbefore hopen => ?_⟩
  · obtain ⟨seen, hseen, hwritten, -⟩ := hdone.exists_seen
    exact hwritten.trans (Frame.wireAll_prefix hseen)
  · obtain ⟨_, hplain⟩ := (hstart False True).run hx moves hflush fun _ _ _ => trivial
    obtain ⟨seen, hseen, hwritten, hnone⟩ := hplain.exists_seen
    exact hwritten.trans (Frame.wireAll_prefix (Frame.prefix_of_disconnect hseen hnone hfront hf))
  · rcases hdone.finished hstage with ⟨-, hcause⟩ | ⟨hwhy, -⟩ | ⟨hwhy, -⟩
    · exact hcause
    · cases hwhy
    · cases hwhy
  · rcases hdone.finished hstage with ⟨hwhy, -⟩ | ⟨-, hparted⟩ | ⟨hwhy, -⟩
    · cases hwhy
    · exact hparted
    · cases hwhy
  · obtain ⟨after, rfl⟩ := hbefore
    rw [run_append] at hstage ⊢
    obtain ⟨done, hthen⟩ := (hstart True True).run hx before (fun _ _ _ _ _ => trivial)
      fun _ _ _ => trivial
    have hrun := hx.run before
    obtain ⟨_, hnow⟩ := (hthen.restart hrun hopen).run hrun after (fun _ _ _ _ _ => trivial)
      fun _ _ _ => trivial
    rcases hnow.finished hstage with ⟨hwhy, -⟩ | ⟨hwhy, -⟩ | ⟨-, hwritten⟩
    · cases hwhy
    · cases hwhy
    · exact hwritten

open WrittenSession in
/-- A frame that is queued while the writer looks at the state is still written when the session
ends at that moment.  A DISCONNECT that was let pass before comes too late. -/
theorem writer_keeps_order_end :
    let x : WrittenSession :=
      { shared := { session :=
          { id := "s", role := .server, remote := .v4 127 0 0 1 9000, version := some .newest
            state := .active } } }
    let write : Move := .write ⟨0⟩ .whole
    let before : List Move :=
      [.make (.sendControl .heartbeat), .goOn 0, .goOn 0, .goOn 0, write, write, write,
        .make (.sendControl .suspend), .goOn 1, .goOn 1, .goOn 1,
        .make (.sendControl .disconnect), .goOn 2, .goOn 2, .make .forceDisconnect]
    let moves := before ++ [.goOn 3, write, write, write, write, .goOn 2, write]
    let front : List Frame := [.control .newest .heartbeat, .control .newest .suspend]
    x.shared.tasks = [] ∧ x.writer = {} ∧ x.queued = x.shared.session.queue ∧
      (∀ before, before <+: moves → ∀ f, (x.run before).writer.stage = .flushing f →
        f.type ≠ .disconnect) ∧
      (x.run before).queued = front ∧ (x.run before).shared.session.state ≠ .disconnected ∧
      (x.run moves).queued = front ++ [.control .newest .disconnect] ∧
      (x.run moves).writer.stage = .finished .emptied ∧
      Frame.wireAll front <+: (x.run moves).writer.sink.written ∧
      (x.run moves).writer.sink.written <+:
        Frame.wireAll (front ++ [.control .newest .disconnect]) := by
  intro x write before moves front
  have hflush : ∀ before, before <+: moves → ∀ f, (x.run before).writer.stage = .flushing f →
      f.type ≠ .disconnect := by
    have hinits : ∀ before ∈ moves.inits,
        (match (x.run before).writer.stage with
          | .flushing f => f.type != .disconnect
          | _ => true) = true := by
      decide +kernel
    intro before hbefore f hf
    have hnot := hinits before ((List.mem_inits before moves).mpr hbefore)
    rw [hf] at hnot
    simpa using hnot
  have hfront : (x.run before).queued = front := by decide +kernel
  have hopen : (x.run before).shared.session.state ≠ .disconnected := by decide +kernel
  have hqueued : (x.run moves).queued = front ++ [.control .newest .disconnect] := by
    decide +kernel
  have hstage : (x.run moves).writer.stage = .finished .emptied := by decide +kernel
  obtain ⟨-, hplain, -, -, hearly⟩ := writer_keeps_order (x := x) rfl rfl rfl moves
  have hwritten := hearly hstage before (List.prefix_append _ _) hopen
  rw [hfront] at hwritten
  exact ⟨rfl, rfl, rfl, hflush, hfront, hopen, hqueued, hstage, hwritten,
    hplain hflush front _ [] hqueued rfl⟩

open WrittenSession in
/-- The writer finds the queue empty.  Then a DISCONNECT and a heartbeat are queued and the session
is ended, before the writer looks whether it is over.  The writer writes both frames. -/
theorem writer_goes_past_disconnect :
    let x : WrittenSession :=
      { shared := { session :=
          { id := "s", role := .server, remote := .v4 127 0 0 1 9000, version := some .newest
            state := .active } } }
    let write : Move := .write ⟨0⟩ .whole
    let moves : List Move :=
      [write, .make (.sendControl .disconnect), .goOn 0, .goOn 0, .goOn 0,
        .make (.sendControl .heartbeat), .goOn 1, .goOn 1, .goOn 1, .make .forceDisconnect,
        .goOn 2, write, write, write, write, write, write, write]
    let frames : List Frame := [.control .newest .disconnect, .control .newest .heartbeat]
    (x.run moves).queued = frames ∧ (x.run moves).writer.sink.written = Frame.wireAll frames ∧
      ¬ (x.run moves).writer.sink.written <+: Frame.wireAll [.control .newest .disconnect] ∧
      (x.run moves).writer.stage = .finished .emptied := by
  decide +kernel

end RemoteCall
