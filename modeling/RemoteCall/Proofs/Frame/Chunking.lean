/-
# Frames do not depend on chunks

Whether the front of a buffer is a frame, and which one, is settled by the bytes that are there:
bytes that arrive later change neither a frame nor an error.  So a stream gives the same frames,
and ends the same way, as if all its bytes had arrived at once.
-/
import Mathlib.Data.List.Forall2
import Mathlib.Tactic.Lemma
import RemoteCall.Frame.Stream

namespace RemoteCall

/-! ## Decoding -/

lemma FrameHeader.read?_append {bytes rest : List UInt8} {h : FrameHeader}
    (hread : read? bytes = some (h, rest)) (more : List UInt8) :
    read? (bytes ++ more) = some (h, rest ++ more) := by
  obtain ⟨correlation, length, hc, hl, rfl, hcorrelation, hlength⟩ := read?_eq_some.mp hread
  exact read?_eq_some.mpr ⟨correlation, length, hc, hl, by simp, hcorrelation, hlength⟩

namespace Framing

variable {c : Framing} {buffer rest bytes : List UInt8} {f : Frame}

/-- A frame stays the same when more bytes arrive. -/
lemma decode_append_of_frame (h : c.decode buffer = .ok (some (f, rest))) (more : List UInt8) :
    c.decode (buffer ++ more) = .ok (some (f, rest ++ more)) := by
  obtain ⟨header, behind, hread, hcheck, hsplit, hversion, hcorrelation⟩ := decode_eq_frame.mp h
  obtain ⟨rfl, hlength⟩ := Wire.splitAt?_eq_some.mp hsplit
  refine decode_eq_frame.mpr ⟨header, _, FrameHeader.read?_append hread more, hcheck, ?_, hversion,
    hcorrelation⟩
  rw [List.append_assoc]
  exact Wire.splitAt?_append hlength

/-- An error stays the same when more bytes arrive. -/
lemma decode_append_of_error {e : Frame.Fault} (h : c.decode buffer = .error e)
    (more : List UInt8) : c.decode (buffer ++ more) = .error e := by
  obtain ⟨header, behind, hread, hcheck⟩ := decode_eq_error.mp h
  exact decode_eq_error.mpr ⟨header, _, FrameHeader.read?_append hread more, hcheck⟩

/-- A frame is accepted: its version is one that may be used now. -/
def Accepts (c : Framing) (f : Frame) : Prop := c.checkVersion f.type f.version = .ok ()

lemma read?_header (hsize : f.payload.length ≤ Frame.maxPayload) (more : List UInt8) :
    FrameHeader.read? (f.header ++ more) =
      some (⟨f.version, f.type.byte, f.correlation, f.payload.length⟩, more) := by
  refine FrameHeader.read?_eq_some.mpr
    ⟨Wire.bigEndian 8 f.correlation.toNat, Wire.bigEndian 4 f.payload.length,
      Wire.length_bigEndian 8 _, Wire.length_bigEndian 4 _, by simp [Frame.header], ?_, ?_⟩
  · have hword : f.correlation.toNat < Nat.pow 256 8 := f.correlation.toNat_lt
    rw [Wire.ofBigEndian_bigEndian, Nat.mod_eq_of_lt hword, UInt64.ofNat_toNat]
  · have hword : f.payload.length < Nat.pow 256 4 := Nat.lt_of_le_of_lt hsize (by decide)
    rw [Wire.ofBigEndian_bigEndian, Nat.mod_eq_of_lt hword]

/-- **What was written is read**, if it is accepted, whatever follows it. -/
lemma decode_encode (hf : f.encode = .ok bytes) (hc : c.Accepts f) (more : List UInt8) :
    c.decode (bytes ++ more) = .ok (some (f, more)) := by
  rw [Frame.encode] at hf
  split at hf
  · next hsize =>
    cases hf
    have hcheck : c.checkHeader ⟨f.version, f.type.byte, f.correlation, f.payload.length⟩ =
        .ok f.type := by
      rw [Accepts] at hc
      simp [checkHeader, MessageType.ofByte?_byte, hc, hsize, bind, Except.bind]
    rw [List.append_assoc]
    exact decode_eq_frame.mpr
      ⟨_, _, read?_header hsize _, hcheck, Wire.splitAt?_append rfl, rfl, rfl⟩
  · cases hf

/-- Frames are accepted one after the other, when versions are agreed on in between. -/
def AcceptsAll (c : Framing) (pins : Nat → List ProtocolVersion) : List Frame → Prop
  | [] => True
  | f :: fs =>
    ((pins 0).foldl pin c).Accepts f ∧
      ((pins 0).foldl pin c).AcceptsAll (fun i => pins (i + 1)) fs

end Framing

namespace FrameStream

variable {s t : FrameStream} {framing : Framing} {ending : StreamEnd} {buffer : List UInt8}
  {incoming chunks chunks' : List (List UInt8)} {f : Frame} {pins : Nat → List ProtocolVersion}

/-- The stream with all its bytes in its buffer. -/
def joined (s : FrameStream) : FrameStream :=
  { s with buffer := s.buffer ++ s.incoming.flatten, incoming := [] }

/-- The same outcome for another stream behind a frame. -/
def Next.map (g : FrameStream → FrameStream) : Next → Next
  | .frame f rest => .frame f (g rest)
  | .done => .done
  | .failed e => .failed e

lemma map_atEnd (g : FrameStream → FrameStream) (buffer : List UInt8) (ending : StreamEnd) :
    (atEnd buffer ending).map g = atEnd buffer ending := by
  cases ending with
  | failed reason => rfl
  | closed => by_cases h : buffer.isEmpty = true <;> simp [atEnd, h, Next.map]

/-- **What comes next from a stream** is what comes next when all bytes have arrived. -/
lemma nextFrom_joined (h : [] ∉ incoming) :
    nextFrom framing ending (buffer ++ incoming.flatten) [] =
      (nextFrom framing ending buffer incoming).map joined := by
  induction incoming generalizing buffer with
  | nil =>
    rcases hd : framing.decode buffer with e | _ | ⟨g, rest⟩
    · simp [nextFrom_of_error hd, Next.map]
    · simp [nextFrom_nil hd, map_atEnd]
    · simp [nextFrom_of_frame hd, Next.map, joined]
  | cons chunk incoming ih =>
    rw [List.mem_cons, not_or] at h
    rcases hd : framing.decode buffer with e | _ | ⟨g, rest⟩
    · rw [nextFrom_of_error hd, nextFrom_of_error (Framing.decode_append_of_error hd _)]
      rfl
    · have hchunk : ¬ chunk.isEmpty = true := by
        rw [List.isEmpty_iff]
        exact fun hnil => h.1 hnil.symm
      rw [nextFrom_cons hd, if_neg hchunk, ← ih h.2, List.flatten_cons, List.append_assoc]
    · rw [nextFrom_of_frame hd, nextFrom_of_frame (Framing.decode_append_of_frame hd _)]
      rfl

/-! ## Reading to the end -/

lemma readAll_of_frame (h : (s.pinAll (pins 0)).next = .frame f t) :
    s.readAll pins =
      (f :: (t.readAll fun i => pins (i + 1)).1, (t.readAll fun i => pins (i + 1)).2) := by
  rw [readAll]
  split
  · next hnext =>
    cases h.symm.trans hnext
    rfl
  · next hnext => cases h.symm.trans hnext
  · next hnext => cases h.symm.trans hnext

lemma readAll_of_done (h : (s.pinAll (pins 0)).next = .done) : s.readAll pins = ([], .ok ()) := by
  rw [readAll]
  split
  · next hnext => cases h.symm.trans hnext
  · rfl
  · next hnext => cases h.symm.trans hnext

lemma readAll_of_failed {e : Failure} (h : (s.pinAll (pins 0)).next = .failed e) :
    s.readAll pins = ([], .error e) := by
  rw [readAll]
  split
  · next hnext => cases h.symm.trans hnext
  · next hnext => cases h.symm.trans hnext
  · next hnext =>
    cases h.symm.trans hnext
    rfl

/-- A stream reads as if all its bytes had arrived at once. -/
lemma readAll_joined (h : [] ∉ s.incoming) : s.joined.readAll pins = s.readAll pins := by
  -- every frame leaves fewer bytes, and chunks none of which is empty
  induction hn : s.size using Nat.strongRecOn generalizing s pins with
  | _ n ih =>
    have hnext : (s.joined.pinAll (pins 0)).next = ((s.pinAll (pins 0)).next).map joined :=
      nextFrom_joined h
    rcases hs : (s.pinAll (pins 0)).next with ⟨f, t⟩ | _ | e <;> rw [hs] at hnext
    · obtain ⟨taken, hincoming, -⟩ := nextFrom_eq_frame hs
      have ht : [] ∉ t.incoming := fun hmem => h (hincoming ▸ List.mem_append_right taken hmem)
      have hsize : t.size < n := hn ▸ size_lt_of_next (s := s.pinAll (pins 0)) hs
      rw [readAll_of_frame hnext, readAll_of_frame hs, ih t.size hsize ht rfl]
    · rw [readAll_of_done hnext, readAll_of_done hs]
    · rw [readAll_of_failed hnext, readAll_of_failed hs]

/-- Frames that were written are read again, and nothing else. -/
lemma readAll_encoded {frames : List Frame} {parts : List (List UInt8)}
    (hparts : List.Forall₂ (fun f bytes => f.encode = .ok bytes) frames parts)
    (h : framing.AcceptsAll pins frames) :
    readAll pins { framing, buffer := parts.flatten } = (frames, .ok ()) := by
  induction hparts generalizing framing pins with
  | nil =>
    refine readAll_of_done ?_
    rfl
  | @cons f bytes frames parts hf hrest ih =>
    have hnext : (pinAll { framing, buffer := (bytes :: parts).flatten } (pins 0)).next =
        .frame f { framing := (pins 0).foldl Framing.pin framing, buffer := parts.flatten } :=
      nextFrom_of_frame (Framing.decode_encode hf h.1 _)
    rw [readAll_of_frame hnext, ih h.2]

/-- **Frames do not depend on chunks**: two streams of the same bytes give the same frames and end
the same way, whatever versions are agreed on between the frames.  A stream of frames that were
written and are accepted gives these frames and ends between two frames. -/
theorem readAll_eq_of_flatten_eq (framing : Framing) (ending : StreamEnd)
    (pins : Nat → List ProtocolVersion) (h : [] ∉ chunks) (h' : [] ∉ chunks')
    (heq : chunks.flatten = chunks'.flatten) :
    readAll pins { framing, incoming := chunks, ending } =
        readAll pins { framing, incoming := chunks', ending } ∧
      ∀ frames parts, List.Forall₂ (fun f bytes => f.encode = .ok bytes) frames parts →
        framing.AcceptsAll pins frames → chunks.flatten = parts.flatten → ending = .closed →
        readAll pins { framing, incoming := chunks, ending } = (frames, .ok ()) := by
  have hjoined : ∀ l : List (List UInt8), [] ∉ l →
      readAll pins { framing, incoming := l, ending } =
        readAll pins { framing, buffer := l.flatten, ending } := by
    intro l hl
    exact (readAll_joined (s := { framing, incoming := l, ending }) hl).symm
  refine ⟨?_, fun frames parts hparts haccepts hbytes hending => ?_⟩
  · rw [hjoined chunks h, hjoined chunks' h', heq]
  · rw [hjoined chunks h, hbytes, hending]
    exact readAll_encoded hparts haccepts

/-- Two frames in single bytes and in one chunk, with the version settled between them. -/
theorem readAll_eq_of_flatten_eq_bytes :
    let framing : Framing := { supported := .full }
    let hello : Frame := .make .oldest .handshake 0 [1, 2]
    let request : Frame := .make .newest .request 9 [3]
    let bytes := (hello.encode.toOption.getD []) ++ (request.encode.toOption.getD [])
    let chunks := bytes.map fun b => [b]
    let pins : Nat → List ProtocolVersion := fun i => if i = 1 then [.newest] else []
    readAll pins { framing, incoming := chunks } = ([hello, request], .ok ()) ∧
      readAll pins { framing, incoming := [bytes] } = ([hello, request], .ok ()) := by
  intro framing hello request bytes chunks pins
  have hchunks : [] ∉ chunks := by decide
  have hbytes : [] ∉ [bytes] := by decide
  have hflatten : chunks.flatten = [bytes].flatten := by decide
  obtain ⟨heq, hframes⟩ :=
    readAll_eq_of_flatten_eq framing .closed pins hchunks hbytes hflatten
  have hall := hframes [hello, request]
    [hello.encode.toOption.getD [], request.encode.toOption.getD []]
    (.cons (by rfl) (.cons (by rfl) .nil)) ⟨by rfl, by rfl, trivial⟩ (by decide) rfl
  exact ⟨hall, heq ▸ hall⟩

end FrameStream

end RemoteCall
