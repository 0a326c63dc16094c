/-
# Frames from a stream of bytes

Bytes arrive in chunks whose borders have nothing to do with those of frames.  The stream keeps
the bytes that have arrived and gives a frame as soon as a whole one is there.  A chunk without
bytes is how a peer that hangs up is noticed, so it ends the stream.
-/
import RemoteCall.Frame.Basic

namespace RemoteCall

/-- How a stream ends. -/
inductive StreamEnd
  /-- The peer hung up. -/
  | closed
  /-- Reading failed. -/
  | failed (reason : String)
deriving DecidableEq, Repr, Inhabited

/-- A stream of bytes that frames are read from. -/
structure FrameStream where
  /-- What is accepted as a frame. -/
  framing : Framing
  /-- The bytes that have arrived and belong to no frame yet. -/
  buffer : List UInt8 := []
  /-- The chunks that are still to come. -/
  incoming : List (List UInt8) := []
  /-- What comes after them, unless one of them is empty. -/
  ending : StreamEnd := .closed
deriving DecidableEq, Repr, Inhabited

namespace FrameStream

/-- What comes next from a stream. -/
inductive Next
  /-- A frame, and the stream behind it. -/
  | frame (frame : Frame) (rest : FrameStream)
  /-- The stream ended between two frames. -/
  | done
  /-- The stream cannot go on. -/
  | failed (failure : Failure)
deriving Repr, Inhabited

/-- What the end of a stream means, given the bytes that belong to no frame. -/
def atEnd (buffer : List UInt8) : StreamEnd → Next
  | .failed reason => .failed (.io reason)
  | .closed =>
    if buffer.isEmpty then .done
    else .failed (Frame.Fault.partialFrame buffer.length).toFailure

/-- Reads the next frame, given the bytes that belong to no frame and the chunks to come. -/
def nextFrom (framing : Framing) (ending : StreamEnd) (buffer : List UInt8) :
    List (List UInt8) → Next
  | [] =>
    match framing.decode buffer with
    | .error e => .failed e.toFailure
    | .ok (some (frame, rest)) => .frame frame { framing, buffer := rest, ending }
    | .ok none => atEnd buffer ending
  | chunk :: incoming =>
    match framing.decode buffer with
    | .error e => .failed e.toFailure
    | .ok (some (frame, rest)) =>
      .frame frame { framing, buffer := rest, incoming := chunk :: incoming, ending }
    | .ok none =>
      if chunk.isEmpty then atEnd buffer .closed
      else nextFrom framing ending (buffer ++ chunk) incoming

/-- Reads the next frame. -/
def next (s : FrameStream) : Next := nextFrom s.framing s.ending s.buffer s.incoming

/-- The stream after a version has been agreed on. -/
def pin (s : FrameStream) (v : ProtocolVersion) : FrameStream :=
  { s with framing := s.framing.pin v }

/-! ## Reading to the end -/

/-- The number of bytes that have not been read as frames. -/
def size (s : FrameStream) : Nat := s.buffer.length + s.incoming.flatten.length

section

variable {framing : Framing} {ending : StreamEnd} {buffer rest : List UInt8} {f : Frame}
  {incoming : List (List UInt8)} {s t : FrameStream}

theorem nextFrom_of_frame (h : framing.decode buffer = .ok (some (f, rest))) :
    nextFrom framing ending buffer incoming =
      .frame f { framing, buffer := rest, incoming, ending } := by
  cases incoming <;> simp only [nextFrom, h]

theorem nextFrom_of_error {e : Frame.Fault} (h : framing.decode buffer = .error e) :
    nextFrom framing ending buffer incoming = .failed e.toFailure := by
  cases incoming <;> simp only [nextFrom, h]

theorem nextFrom_nil (h : framing.decode buffer = .ok none) :
    nextFrom framing ending buffer [] = atEnd buffer ending := by
  simp only [nextFrom, h]

theorem nextFrom_cons (h : framing.decode buffer = .ok none) (chunk : List UInt8) :
    nextFrom framing ending buffer (chunk :: incoming) =
      if chunk.isEmpty then atEnd buffer .closed
      else nextFrom framing ending (buffer ++ chunk) incoming := by
  simp only [nextFrom, h]

theorem atEnd_ne_frame : atEnd buffer ending ≠ .frame f s := by
  cases ending with
  | failed reason => simp [atEnd]
  | closed => by_cases h : buffer.isEmpty = true <;> simp [atEnd, h]

/-- A frame is at the front of the buffer and some of the chunks, the others are still to come. -/
theorem nextFrom_eq_frame (h : nextFrom framing ending buffer incoming = .frame f t) :
    ∃ taken, incoming = taken ++ t.incoming ∧
      framing.decode (buffer ++ taken.flatten) = .ok (some (f, t.buffer)) := by
  induction incoming generalizing buffer with
  | nil =>
    rcases hd : framing.decode buffer with e | _ | ⟨g, rest⟩
    · cases (nextFrom_of_error hd).symm.trans h
    · exact absurd ((nextFrom_nil hd).symm.trans h) atEnd_ne_frame
    · cases (nextFrom_of_frame hd).symm.trans h
      exact ⟨[], rfl, by simpa using hd⟩
  | cons chunk incoming ih =>
    rcases hd : framing.decode buffer with e | _ | ⟨g, rest⟩
    · cases (nextFrom_of_error hd).symm.trans h
    · rw [nextFrom_cons hd] at h
      by_cases hchunk : chunk.isEmpty = true
      · rw [if_pos hchunk] at h
        exact absurd h atEnd_ne_frame
      · rw [if_neg hchunk] at h
        obtain ⟨taken, hincoming, hdecode⟩ := ih h
        exact ⟨chunk :: taken, by simp [← hincoming], by simpa using hdecode⟩
    · cases (nextFrom_of_frame hd).symm.trans h
      exact ⟨[], rfl, by simpa using hd⟩

/-- Every frame takes bytes. -/
theorem size_lt_of_next (h : s.next = .frame f t) : t.size < s.size := by
  obtain ⟨taken, hincoming, hdecode⟩ := nextFrom_eq_frame h
  have hlt := Framing.length_lt_of_decode hdecode
  simp only [size, hincoming, List.flatten_append, List.length_append] at hlt ⊢
  omega

end

/-- The stream after versions have been agreed on, one after the other. -/
def pinAll (s : FrameStream) (versions : List ProtocolVersion) : FrameStream :=
  { s with framing := versions.foldl Framing.pin s.framing }

/-- The frames of a stream, and how it ends.  `pins` gives the versions that are agreed on before
each frame is asked for. -/
def readAll (pins : Nat → List ProtocolVersion) (s : FrameStream) :
    List Frame × Except Failure Unit :=
  match _h : (s.pinAll (pins 0)).next with
  | .frame f rest =>
    let (frames, ending) := readAll (fun i => pins (i + 1)) rest
    (f :: frames, ending)
  | .done => ([], .ok ())
  | .failed e => ([], .error e)
  termination_by s.size
  decreasing_by exact size_lt_of_next (s := s.pinAll (pins 0)) _h

end FrameStream

end RemoteCall
