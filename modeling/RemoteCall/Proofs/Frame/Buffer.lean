/-
# A frame, a fault, or more bytes

What stands at the front of a buffer is settled by the bytes of one header, and so is how many bytes
are missing.  A frame is taken off a buffer exactly where the bytes are those that putting it there
gives, and its version may be used; a step that does not succeed leaves the buffer as it was.
-/
import RemoteCall.Frame.Buffer
import RemoteCall.Proofs.Frame.Chunking
import RemoteCall.Proofs.Wire.Grammar

namespace RemoteCall

/-! ## Headers -/

namespace FrameHeader

variable {bytes behind : List UInt8} {h : FrameHeader}

/-- A header takes fourteen bytes off the front. -/
lemma exists_front_of_read? (hread : read? bytes = some (h, behind)) :
    ∃ front, bytes = front ++ behind ∧ front.length = Frame.headerSize := by
  obtain ⟨correlation, length, hc, hl, rfl, -, -⟩ := read?_eq_some.mp hread
  refine ⟨h.version.number :: h.typeByte :: (correlation ++ length), by simp, ?_⟩
  simp only [List.length_cons, List.length_append, Frame.headerSize]
  omega

/-- Fourteen bytes are a header, whatever they are. -/
lemma exists_read?_of_le (hlen : Frame.headerSize ≤ bytes.length) :
    ∃ h behind, read? bytes = some (h, behind) := by
  obtain ⟨version, typeByte, tail, rfl⟩ :
      ∃ version typeByte tail, bytes = version :: typeByte :: tail := by
    rcases bytes with _ | ⟨version, _ | ⟨typeByte, tail⟩⟩
    · simp [Frame.headerSize] at hlen
    · simp [Frame.headerSize] at hlen
    · exact ⟨version, typeByte, tail, rfl⟩
  have htail : 12 ≤ tail.length := by
    simp only [List.length_cons, Frame.headerSize] at hlen
    omega
  refine ⟨⟨⟨version⟩, typeByte, _, _⟩, tail.drop 12, read?_eq_some.mpr
    ⟨tail.take 8, (tail.drop 8).take 4, ?_, ?_, ?_, rfl, rfl⟩⟩
  · rw [List.length_take]
    omega
  · rw [List.length_take, List.length_drop]
    omega
  · rw [show tail.drop 12 = (tail.drop 8).drop 4 by rw [List.drop_drop],
      List.take_append_drop, List.take_append_drop]

end FrameHeader

namespace Framing

variable {c : Framing} {b r : List UInt8} {f : Frame} {h : FrameHeader} {behind : List UInt8}

/-! ## What is accepted -/

/-- The version of a frame may be used now: the frame belongs to the handshake, or its version is
supported and is the one that has been agreed on, if one has been. -/
def Admits (c : Framing) (f : Frame) : Prop :=
  f.type.isHandshake = true ∨
    c.supported.contains f.version = true ∧ ∀ v, c.pinned = some v → f.version = v

lemma accepts_iff_admits : c.Accepts f ↔ c.Admits f := by
  rw [Accepts, Admits, checkVersion]
  split
  · next hhandshake => simp [hhandshake]
  · next hhandshake =>
    rcases hcontains : c.supported.contains f.version with _ | _
    · simp [hhandshake]
    · rcases hpinned : c.pinned with _ | v
      · simp [hhandshake]
      · by_cases hv : f.version = v <;> simp [hhandshake, hv]

lemma checkHeader_eq_ok {type : MessageType} (hcheck : c.checkHeader h = .ok type) :
    type.byte = h.typeByte ∧ c.checkVersion type h.version = .ok () ∧
      h.length ≤ Frame.maxPayload := by
  rw [checkHeader] at hcheck
  split at hcheck
  · cases hcheck
  · next type' htype =>
    obtain ⟨_, hversion, hcheck⟩ := bind_eq_ok.mp hcheck
    split at hcheck
    · next hlength =>
      cases hcheck
      exact ⟨MessageType.byte_of_ofByte? htype, hversion, hlength⟩
    · cases hcheck

/-- A frame that is read takes exactly the bytes that it is written as. -/
lemma eq_encode_of_decode (hdecode : c.decode b = .ok (some (f, r))) :
    c.Admits f ∧ f.encode = .ok (f.header ++ f.payload) ∧ b = f.header ++ f.payload ++ r := by
  obtain ⟨h, behind, hread, hcheck, hsplit, hversion, hcorrelation⟩ := decode_eq_frame.mp hdecode
  obtain ⟨correlation, length, hc, hl, rfl, hword, hlength⟩ := FrameHeader.read?_eq_some.mp hread
  obtain ⟨rfl, hpayload⟩ := Wire.splitAt?_eq_some.mp hsplit
  obtain ⟨htype, haccepts, hsize⟩ := checkHeader_eq_ok hcheck
  rw [← hversion] at haccepts
  refine ⟨accepts_iff_admits.mp haccepts, if_pos (hpayload ▸ hsize), ?_⟩
  -- a number of fixed width is spelled in one way only
  have hword' : Wire.bigEndian 8 f.correlation.toNat = correlation := by
    rw [hcorrelation, hword, Wire.bigEndian_bits hc]
  have hlength' : Wire.bigEndian 4 f.payload.length = length := by
    rw [hpayload, hlength, ← hl, Wire.bigEndian_ofBigEndian]
  rw [Frame.header, hword', hlength', hversion, htype]
  simp only [List.cons_append, List.append_assoc]

/-! ## How many bytes are missing -/

/-- More bytes are needed where there is no whole header, or where a header that passes announces
more bytes than there are. -/
lemma decode_eq_none : c.decode b = .ok none ↔
    FrameHeader.read? b = none ∨ ∃ h behind type, FrameHeader.read? b = some (h, behind) ∧
      c.checkHeader h = .ok type ∧ behind.length < h.length := by
  simp only [decode]
  rcases hread : FrameHeader.read? b with _ | ⟨h, behind⟩
  · simp
  · rcases hcheck : c.checkHeader h with e | type
    · simp [bind, Except.bind, hcheck]
    · by_cases hle : h.length ≤ behind.length
      · simp [bind, Except.bind, hcheck, Wire.splitAt?_eq, hle, Nat.not_lt.mpr hle]
      · simp [bind, Except.bind, hcheck, Wire.splitAt?_eq, hle, Nat.lt_of_not_le hle]

/-- As long as fewer bytes arrive than are missing, more are needed; with as many there is a
frame. -/
lemma decode_append_of_missing {type : MessageType} (hread : FrameHeader.read? b = some (h, behind))
    (hcheck : c.checkHeader h = .ok type) (hlt : behind.length < h.length) (x : List UInt8) :
    (x.length < h.length - behind.length → c.decode (b ++ x) = .ok none) ∧
      (x.length = h.length - behind.length → ∃ f, c.decode (b ++ x) = .ok (some (f, []))) := by
  have hread' := FrameHeader.read?_append hread x
  constructor
  · intro hx
    refine decode_eq_none.mpr (Or.inr ⟨h, behind ++ x, type, hread', hcheck, ?_⟩)
    rw [List.length_append]
    omega
  · intro hx
    have hsplit : Wire.splitAt? h.length (behind ++ x) = some (behind ++ x, []) := by
      refine Wire.splitAt?_eq_some.mpr ⟨(List.append_nil _).symm, ?_⟩
      rw [List.length_append]
      omega
    exact ⟨⟨h.version, type, h.correlation, behind ++ x⟩,
      decode_eq_frame.mpr ⟨h, behind ++ x, hread', hcheck, hsplit, rfl, rfl⟩⟩

end Framing

/-! ## In place -/

/-- A step that looks at the buffer first. -/
lemma BufferStep.on_get_bind {α : Type} (k : List UInt8 → BufferStep α) (b : List UInt8) :
    (get >>= k : BufferStep α).on b = (k b).on b := rfl

/-- A frame that can be written ends up at the end of the buffer as its bytes. -/
lemma Frame.on_put_of_le {f : Frame} (hsize : f.payload.length ≤ maxPayload) (b : List UInt8) :
    f.put.on b = (.ok (), b ++ (f.header ++ f.payload)) := by
  have hput : f.put.on b = (.ok (), b ++ [f.version.number] ++ [f.type.byte] ++
      Wire.bigEndian 8 f.correlation.toNat ++ Wire.bigEndian 4 f.payload.length ++ f.payload) := by
    simp only [put, BufferStep.on, if_neg (Nat.not_lt.mpr hsize)]
    rfl
  rw [hput, header]
  simp only [List.append_assoc, List.cons_append, List.nil_append]

lemma Frame.on_put_of_lt {f : Frame} (hsize : maxPayload < f.payload.length) (b : List UInt8) :
    f.put.on b = (.error (.payloadTooLong f.payload.length), b) := by
  simp only [put, BufferStep.on, if_pos hsize]
  rfl

namespace Framing

variable {c : Framing} {b b' r : List UInt8} {f : Frame}

/-- A frame at the front is taken off the buffer, and otherwise the buffer stays. -/
lemma on_take (c : Framing) (b : List UInt8) :
    c.take.on b =
      match c.decode b with
      | .error e => (.error e, b)
      | .ok none => (.ok none, b)
      | .ok (some (f, rest)) => (.ok (some f), rest) := by
  rw [take, BufferStep.on_get_bind, decode]
  rcases hread : FrameHeader.read? b with _ | ⟨h, behind⟩
  · rfl
  rcases hcheck : c.checkHeader h with e | type
  · simp only [bind, Except.bind, hcheck]
    rfl
  obtain ⟨front, rfl, hfront⟩ := FrameHeader.exists_front_of_read? hread
  have hlen : (front ++ behind).length = Frame.headerSize + behind.length := by
    rw [List.length_append, hfront]
  by_cases hle : h.length ≤ behind.length
  · have hsplit : Wire.splitAt? h.length behind =
        some (behind.take h.length, behind.drop h.length) := by
      rw [Wire.splitAt?_eq, if_pos hle]
    have hnot : ¬ (front ++ behind).length < Frame.headerSize + h.length := by omega
    have htake : ((front ++ behind).take (Frame.headerSize + h.length)).drop Frame.headerSize =
        behind.take h.length := by
      rw [← hfront, List.take_length_add_append, List.drop_left]
    have hdrop : (front ++ behind).drop (Frame.headerSize + h.length) = behind.drop h.length := by
      rw [← hfront, List.drop_length_add_append]
    simp only [hcheck, bind, Except.bind, hsplit, if_neg hnot]
    rw [← htake, ← hdrop]
    rfl
  · have hsplit : Wire.splitAt? h.length behind = none := by
      rw [Wire.splitAt?_eq, if_neg hle]
    have hlt : (front ++ behind).length < Frame.headerSize + h.length := by omega
    simp only [hcheck, bind, Except.bind, hsplit, if_pos hlt]
    rfl

lemma on_take_eq_frame :
    c.take.on b = (.ok (some f), r) ↔ c.decode b = .ok (some (f, r)) := by
  rw [on_take]
  rcases c.decode b with e | _ | ⟨g, rest⟩ <;> simp

lemma on_take_eq_error {e : Frame.Fault} :
    c.take.on b = (.error e, b') ↔ c.decode b = .error e ∧ b' = b := by
  rw [on_take]
  rcases c.decode b with e' | _ | ⟨g, rest⟩ <;> simp [eq_comm]

lemma on_take_eq_none : c.take.on b = (.ok none, b') ↔ c.decode b = .ok none ∧ b' = b := by
  rw [on_take]
  rcases c.decode b with e | _ | ⟨g, rest⟩ <;> simp [eq_comm]

/-- A buffer that holds a header which passes lacks a certain number of bytes. -/
lemma existsUnique_missing (hdecode : c.decode b = .ok none) (hlen : Frame.headerSize ≤ b.length) :
    ∃! n, 0 < n ∧ (∀ x : List UInt8, x.length = n → ∃ f, c.take.on (b ++ x) = (.ok (some f), [])) ∧
      ∀ x : List UInt8, x.length < n → c.take.on (b ++ x) = (.ok none, b ++ x) := by
  obtain ⟨h, behind, hread⟩ := FrameHeader.exists_read?_of_le hlen
  obtain ⟨type, hcheck, hlt⟩ : ∃ type, c.checkHeader h = .ok type ∧ behind.length < h.length := by
    rcases decode_eq_none.mp hdecode with hnone | ⟨h', behind', type, hread', hcheck, hlt⟩
    · rw [hread] at hnone
      cases hnone
    · rw [hread] at hread'
      cases hread'
      exact ⟨type, hcheck, hlt⟩
  have hmissing := decode_append_of_missing hread hcheck hlt
  refine ⟨h.length - behind.length, ⟨by omega, fun x hx => ?_, fun x hx => ?_⟩, ?_⟩
  · obtain ⟨f, hf⟩ := (hmissing x).2 hx
    exact ⟨f, on_take_eq_frame.mpr hf⟩
  · exact on_take_eq_none.mpr ⟨(hmissing x).1 hx, rfl⟩
  · -- with the smaller of two such numbers of bytes there would be a frame and none
    rintro n ⟨-, hframe, hnone⟩
    rcases Nat.lt_trichotomy n (h.length - behind.length) with hn | hn | hn
    · obtain ⟨f, hf⟩ := hframe (List.replicate n 0) List.length_replicate
      have hmore := (hmissing (List.replicate n 0)).1 (by rwa [List.length_replicate])
      rw [on_take_eq_frame.mp hf] at hmore
      cases hmore
    · exact hn
    · obtain ⟨f, hf⟩ := (hmissing (List.replicate (h.length - behind.length) 0)).2
        List.length_replicate
      have hmore := hnone (List.replicate (h.length - behind.length) 0)
        (by rwa [List.length_replicate])
      rw [(on_take_eq_none.mp hmore).1] at hf
      cases hf

/-- **A frame, a fault, or more bytes.**  A frame that is taken off a buffer may be used now, its
bytes are what putting it gives, and it is taken whatever follows.  A fault stays the same when more
bytes follow, and leaves the buffer alone.  So does a need for more bytes, and once there is a
header it says how many are missing.  Conversely, a frame that can be written and may be used now is
taken off again, and one that cannot be written leaves the buffer alone. -/
theorem frame_fault_or_more (c : Framing) :
    (∀ b f r, c.take.on b = (.ok (some f), r) →
      c.Admits f ∧ (∃ bytes, f.put.on [] = (.ok (), bytes) ∧ b = bytes ++ r) ∧
        ∀ x, c.take.on (b ++ x) = (.ok (some f), r ++ x)) ∧
    (∀ b e b', c.take.on b = (.error e, b') →
      b' = b ∧ ∀ x, c.take.on (b ++ x) = (.error e, b ++ x)) ∧
    (∀ b b', c.take.on b = (.ok none, b') →
      b' = b ∧ (Frame.headerSize ≤ b.length →
        ∃! n, 0 < n ∧
          (∀ x : List UInt8, x.length = n → ∃ f, c.take.on (b ++ x) = (.ok (some f), [])) ∧
          ∀ x : List UInt8, x.length < n → c.take.on (b ++ x) = (.ok none, b ++ x))) ∧
    (∀ f : Frame, f.payload.length ≤ Frame.maxPayload → c.Admits f →
      ∃ bytes, (∀ b, f.put.on b = (.ok (), b ++ bytes)) ∧
        ∀ x, c.take.on (bytes ++ x) = (.ok (some f), x)) ∧
    ∀ f : Frame, Frame.maxPayload < f.payload.length →
      ∀ b, f.put.on b = (.error (.payloadTooLong f.payload.length), b) := by
  refine ⟨?_, ?_, ?_, ?_, fun f hsize b => Frame.on_put_of_lt hsize b⟩
  · intro b f r htake
    have hdecode := on_take_eq_frame.mp htake
    obtain ⟨hadmits, hencode, hb⟩ := eq_encode_of_decode hdecode
    refine ⟨hadmits, ⟨_, ?_, hb⟩, fun x => on_take_eq_frame.mpr (decode_append_of_frame hdecode x)⟩
    rw [Frame.encode] at hencode
    split at hencode
    · next hsize => exact Frame.on_put_of_le hsize []
    · cases hencode
  · intro b e b' htake
    obtain ⟨hdecode, hb⟩ := on_take_eq_error.mp htake
    exact ⟨hb, fun x => on_take_eq_error.mpr ⟨decode_append_of_error hdecode x, rfl⟩⟩
  · intro b b' htake
    obtain ⟨hdecode, hb⟩ := on_take_eq_none.mp htake
    exact ⟨hb, existsUnique_missing hdecode⟩
  · intro f hsize hadmits
    refine ⟨f.header ++ f.payload, Frame.on_put_of_le hsize, fun x => on_take_eq_frame.mpr ?_⟩
    exact decode_encode (if_pos hsize) (accepts_iff_admits.mpr hadmits) x

/-- With the fifth version agreed on: a request with a byte behind it, a request of the fourth
version, a request of which the payload is missing, and one whose payload is a byte too long. -/
theorem frame_fault_or_more_pinned :
    let c : Framing := { supported := .full, pinned := some .newest }
    let f : Frame := .make .newest .request 9 [3, 4]
    let bytes := f.header ++ f.payload
    let old : Frame := .make ⟨4⟩ .request 9 []
    let long : Frame := .make .newest .request 9 (List.replicate (Frame.maxPayload + 1) 0)
    (c.take.on (bytes ++ [8]) = (.ok (some f), [8]) ∧
        ∀ x, c.take.on (bytes ++ [8] ++ x) = (.ok (some f), [8] ++ x)) ∧
      (c.take.on old.header = (.error (.versionDiffers .request ⟨4⟩ .newest), old.header) ∧
        ∀ x, c.take.on (old.header ++ x) =
          (.error (.versionDiffers .request ⟨4⟩ .newest), old.header ++ x)) ∧
      (c.take.on f.header = (.ok none, f.header) ∧
        ∃! n, 0 < n ∧
          (∀ x : List UInt8, x.length = n → ∃ g, c.take.on (f.header ++ x) = (.ok (some g), [])) ∧
          ∀ x : List UInt8, x.length < n → c.take.on (f.header ++ x) = (.ok none, f.header ++ x)) ∧
      (c.Admits f ∧ ∃ bytes, (∀ b, f.put.on b = (.ok (), b ++ bytes)) ∧
        ∀ x, c.take.on (bytes ++ x) = (.ok (some f), x)) ∧
      ∀ b, long.put.on b = (.error (.payloadTooLong (Frame.maxPayload + 1)), b) := by
  intro c f bytes old long
  obtain ⟨hframe, hfault, hmore, hwritten, hlong⟩ := frame_fault_or_more c
  have htake : c.take.on (bytes ++ [8]) = (.ok (some f), [8]) := by decide +kernel
  have hold : c.take.on old.header =
      (.error (.versionDiffers .request ⟨4⟩ .newest), old.header) := by decide +kernel
  have hheader : c.take.on f.header = (.ok none, f.header) := by decide +kernel
  have hadmits : c.Admits f := Or.inr ⟨by decide, fun v hv => Option.some.inj hv⟩
  have hlength : long.payload.length = Frame.maxPayload + 1 := List.length_replicate
  refine ⟨⟨htake, (hframe _ f _ htake).2.2⟩, ⟨hold, (hfault _ _ _ hold).2⟩,
    ⟨hheader, (hmore _ _ hheader).2 (by decide +kernel)⟩,
    ⟨hadmits, hwritten f (by decide) hadmits⟩, ?_⟩
  rw [← hlength]
  exact hlong long (by omega)

end Framing

end RemoteCall
