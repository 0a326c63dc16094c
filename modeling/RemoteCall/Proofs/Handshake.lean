/-
# Both ends agree

The server computes the version from both ranges; the client takes it from the answer and holds it
against its own range.  `Hello.exchange` sends the opening and the answer as bytes through the
framing of the other end.  No ranges and no texts make the two ends disagree, and the frames that
are built at the agreed version pass the framing of either end.
-/
import RemoteCall.Handshake
import RemoteCall.Proofs.Frame.Chunking
import RemoteCall.Proofs.Wire.Reading

namespace RemoteCall

/-! ## Ranges of versions -/

namespace VersionRange

variable {r s : VersionRange} {v : ProtocolVersion}

lemma contains_iff : r.contains v ↔ r.low.number ≤ v.number ∧ v.number ≤ r.high.number := by
  rw [contains, Bool.and_eq_true, decide_eq_true_iff, decide_eq_true_iff]

/-- The library has this for minima of bytes only. -/
lemma max_le_iff {a b c : UInt8} : max a b ≤ c ↔ a ≤ c ∧ b ≤ c := by
  show (if a ≤ b then b else a) ≤ c ↔ _
  split <;> grind

/-- The agreed version is the highest that both ranges hold. -/
lemma of_negotiate?_eq_some (h : r.negotiate? s = some v) :
    r.contains v ∧ s.contains v ∧ ∀ w, r.contains w → s.contains w → w.number ≤ v.number := by
  simp only [negotiate?] at h
  split at h
  · next hle =>
    cases h
    obtain ⟨hr, hs⟩ := max_le_iff.mp hle
    refine ⟨contains_iff.mpr ⟨hr, Std.min_le_left⟩, contains_iff.mpr ⟨hs, Std.min_le_right⟩, ?_⟩
    intro w hw hw'
    exact Std.le_min_iff.mpr ⟨(contains_iff.mp hw).2, (contains_iff.mp hw').2⟩
  · cases h

/-- Ranges with a common version agree on one. -/
lemma exists_negotiate?_eq_some (hr : r.contains v) (hs : s.contains v) :
    ∃ w, r.negotiate? s = some w := by
  obtain ⟨hr, hr'⟩ := contains_iff.mp hr
  obtain ⟨hs, hs'⟩ := contains_iff.mp hs
  have hlow : max r.low.number s.low.number ≤ v.number := max_le_iff.mpr ⟨hr, hs⟩
  have hhigh : v.number ≤ min r.high.number s.high.number := Std.le_min_iff.mpr ⟨hr', hs'⟩
  exact ⟨_, if_pos (UInt8.le_trans hlow hhigh)⟩

lemma ofPeer_ends (r : VersionRange) : ofPeer r.low.number r.high.number = .ok r :=
  dif_pos r.ordered

end VersionRange

/-! ## Frames between the ends -/

namespace Framing

/-- The frame that an end finds in the bytes of a frame that it is sent. -/
def receive (c : Framing) (f : Frame) : Except Failure Frame :=
  match f.encode with
  | .error e => .error e.toFailure
  | .ok bytes =>
    match c.decode bytes with
    | .error e => .error e.toFailure
    | .ok none => .error (Frame.Fault.partialFrame bytes.length).toFailure
    | .ok (some (g, _)) => .ok g

variable {c : Framing} {f : Frame}

/-- Frames of the handshake pass whatever their version is. -/
lemma receive_of_isHandshake (hf : f.type.isHandshake = true)
    (hsize : f.payload.length ≤ Frame.maxPayload) : c.receive f = .ok f := by
  have hbytes : f.encode = .ok (f.header ++ f.payload) := if_pos hsize
  have haccepts : c.Accepts f := if_pos hf
  have hdecode := decode_encode hbytes haccepts []
  rw [List.append_nil] at hdecode
  simp only [receive, hbytes, hdecode]

/-- A frame at a supported version is accepted as long as no version, or that version, has been
agreed on. -/
lemma accepts_of_contains {own : VersionRange} (h : own.contains f.version) :
    Accepts { supported := own } f ∧ Accepts (pin { supported := own } f.version) f := by
  constructor <;> simp [Accepts, checkVersion, pin, h]

end Framing

open Wire

lemma run_readEnds (low high : UInt8) (offset : Nat) (rest : List UInt8) (trusting : Bool) :
    StateT.run readEnds ⟨offset, low :: high :: rest, trusting⟩ =
      .ok ((low, high), ⟨offset + 2, rest, trusting⟩) := rfl

/-- The text at the end of a payload that fits into a frame. -/
lemma run_lastText {s : String} {size : Nat} (hfits : size + (putText s).length ≤ Frame.maxPayload)
    (offset : Nat) (trusting : Bool) :
    StateT.run Reader.text ⟨offset, putText s, trusting⟩ =
      .ok (s, ⟨offset + (putText s).length, [], trusting⟩) := by
  have hword : Frame.maxPayload < 2 ^ 64 := by decide
  have h := Reader.recovers_text s (by omega) offset [] trusting
  rwa [List.append_nil] at h

/-- An answer comes back from its frame. -/
lemma Reply.ofFrame_toFrame {r : Reply} (hfits : r.payload.length ≤ Frame.maxPayload) :
    ofFrame r.toFrame = .ok r := by
  have htype : expectType r.toFrame .handshakeAck = .ok () := rfl
  cases r with
  | accepted version server sessionId =>
    have hpayload : Cursor.start (toFrame (accepted version server sessionId)).payload =
        ⟨0, 0 :: version.number :: server.low.number :: server.high.number :: putText sessionId,
          false⟩ := rfl
    have htext : 4 + (putText sessionId).length ≤ Frame.maxPayload := by
      simp only [payload, List.length_cons] at hfits
      omega
    simp only [ofFrame, htype, hpayload, run_readEnds, ofMalformed, VersionRange.ofPeer_ends,
      run_lastText htext, bind, Except.bind, if_pos]
  | rejected server =>
    have hpayload : Cursor.start (toFrame (rejected server)).payload =
        ⟨0, 1 :: 0 :: server.low.number :: server.high.number :: putText "", false⟩ := rfl
    have htext : 4 + (putText "").length ≤ Frame.maxPayload := by
      simp only [payload, List.length_cons] at hfits
      omega
    simp only [ofFrame, htype, hpayload, run_readEnds, ofMalformed, VersionRange.ofPeer_ends,
      run_lastText htext, bind, Except.bind]
    rfl

namespace Hello

/-- An opening comes back from its frame. -/
lemma ofFrame_toFrame {h : Hello} (hfits : 2 + (putText h.clientId).length ≤ Frame.maxPayload) :
    ofFrame h.toFrame = .ok h := by
  have htype : expectType h.toFrame .handshake = .ok () := rfl
  have hpayload : Cursor.start h.toFrame.payload =
      ⟨0, h.range.low.number :: h.range.high.number :: putText h.clientId, false⟩ := rfl
  simp only [ofFrame, htype, hpayload, run_readEnds, ofMalformed, VersionRange.ofPeer_ends,
    run_lastText hfits, bind, Except.bind]
  rfl

/-- A whole handshake: the server reads the opening from the bytes of its frame and answers it, and
the client reads the answer from the bytes of the server's frame.  Gives the answer of the server
and what it means to the client. -/
def exchange (h : Hello) (server : VersionRange) (sessionId : String) :
    Except Failure (Reply × Except Failure (ProtocolVersion × String)) := do
  let opening ← Framing.receive { supported := server } h.toFrame
  let hello ← ofFrame opening
  let reply := hello.respond server sessionId
  let answer ← Framing.receive { supported := h.range } reply.toFrame
  let reply' ← Reply.ofFrame answer
  pure (reply, reply'.negotiated h.range)

/-- No frame of the handshake is lost or changed. -/
lemma exchange_eq {h : Hello} {server : VersionRange} {sessionId : String}
    (hhello : 2 + (putText h.clientId).length ≤ Frame.maxPayload)
    (hreply : (h.respond server sessionId).payload.length ≤ Frame.maxPayload) :
    h.exchange server sessionId =
      .ok (h.respond server sessionId, (h.respond server sessionId).negotiated h.range) := by
  have hsize : h.toFrame.payload.length ≤ Frame.maxPayload := by
    simp only [toFrame, Frame.make, List.length_cons]
    omega
  have hopening : Framing.receive { supported := server } h.toFrame = .ok h.toFrame :=
    Framing.receive_of_isHandshake rfl hsize
  have hanswer : Framing.receive { supported := h.range } (h.respond server sessionId).toFrame =
      .ok (h.respond server sessionId).toFrame :=
    Framing.receive_of_isHandshake rfl hreply
  simp only [exchange, hopening, ofFrame_toFrame hhello, hanswer, Reply.ofFrame_toFrame hreply,
    bind, Except.bind, pure, Except.pure]

/-- **Both ends agree.**  When the texts fit into frames, a handshake fails for no reason but the
ranges.  If there is a common version, the server and the client settle on the same one, the highest
that both support, and the client gets the identifier that the server gave to the session; from then
on every frame that is built at this version and can be written is read by both ends, whether they
have pinned the version yet or not.  If there is none, the server refuses and the client reports
that the negotiation has failed. -/
theorem both_ends_agree (h : Hello) (server : VersionRange) (sessionId : String)
    (hhello : 2 + (putText h.clientId).length ≤ Frame.maxPayload)
    (hsession : 4 + (putText sessionId).length ≤ Frame.maxPayload) :
    (∀ w, h.range.contains w → server.contains w → ∃ v,
      h.exchange server sessionId = .ok (.accepted v server sessionId, .ok (v, sessionId)) ∧
      h.range.contains v ∧ server.contains v ∧
      (∀ u, h.range.contains u → server.contains u → u.number ≤ v.number) ∧
      ∀ own ∈ [h.range, server], ∀ type correlation payload bytes,
        (Frame.make v type correlation payload).encode = .ok bytes → ∀ more,
          Framing.decode { supported := own } (bytes ++ more) =
            .ok (some (Frame.make v type correlation payload, more)) ∧
          (Framing.pin { supported := own } v).decode (bytes ++ more) =
            .ok (some (Frame.make v type correlation payload, more))) ∧
    ((∀ w, ¬ (h.range.contains w ∧ server.contains w)) →
      ∃ detail, h.exchange server sessionId =
        .ok (.rejected server, .error (.negotiationFailed detail))) := by
  constructor
  · intro w hw hw'
    obtain ⟨v, hv⟩ := VersionRange.exists_negotiate?_eq_some hw' hw
    obtain ⟨hserver, hclient, hmax⟩ := VersionRange.of_negotiate?_eq_some hv
    have hrespond : h.respond server sessionId = .accepted v server sessionId := by
      simp only [respond, hv]
    have hreply : (h.respond server sessionId).payload.length ≤ Frame.maxPayload := by
      simp only [hrespond, Reply.payload, List.length_cons]
      omega
    refine ⟨v, ?_, hclient, hserver, fun u hu hu' => hmax u hu' hu, ?_⟩
    · rw [exchange_eq hhello hreply, hrespond, Reply.negotiated, if_pos hclient]
    · intro own hown type correlation payload bytes hbytes more
      have hcontains : own.contains v := by
        rcases List.mem_pair.mp hown with rfl | rfl
        · exact hclient
        · exact hserver
      obtain ⟨hbefore, hafter⟩ :=
        Framing.accepts_of_contains (f := Frame.make v type correlation payload) hcontains
      exact ⟨Framing.decode_encode hbytes hbefore more, Framing.decode_encode hbytes hafter more⟩
  · intro hnone
    have hv : server.negotiate? h.range = none := by
      refine Option.eq_none_iff_forall_ne_some.mpr fun v hv => ?_
      obtain ⟨hserver, hclient, -⟩ := VersionRange.of_negotiate?_eq_some hv
      exact hnone v ⟨hclient, hserver⟩
    have hrespond : h.respond server sessionId = .rejected server := by
      simp only [respond, hv]
    have hempty : (putText "").length = 1 := by decide +kernel
    have hreply : (h.respond server sessionId).payload.length ≤ Frame.maxPayload := by
      simp only [hrespond, Reply.payload, List.length_cons, hempty]
      decide
    have hexchange := exchange_eq hhello hreply
    rw [hrespond] at hexchange
    exact ⟨_, hexchange⟩

/-- A client of the first three versions, a server that meets it halfway, and one that is too
new. -/
theorem both_ends_agree_halfway :
    let h : Hello := { range := ⟨⟨1⟩, ⟨3⟩, by decide⟩, clientId := "caller" }
    let server : VersionRange := ⟨⟨2⟩, ⟨5⟩, by decide⟩
    let newer : VersionRange := ⟨⟨4⟩, ⟨5⟩, by decide⟩
    2 + (putText h.clientId).length ≤ Frame.maxPayload ∧
      4 + (putText "s-1").length ≤ Frame.maxPayload ∧
      h.exchange server "s-1" = .ok (.accepted ⟨3⟩ server "s-1", .ok (⟨3⟩, "s-1")) ∧
      Framing.decode (Framing.pin { supported := server } ⟨3⟩)
        (3 :: 3 :: (bigEndian 8 9 ++ bigEndian 4 1 ++ [7] ++ [1, 2])) =
          .ok (some (Frame.make ⟨3⟩ .request 9 [7], [1, 2])) ∧
      ∃ detail,
        h.exchange newer "s-1" = .ok (.rejected newer, .error (.negotiationFailed detail)) := by
  intro h server newer
  have hhello : 2 + (putText h.clientId).length ≤ Frame.maxPayload := by decide +kernel
  have hsession : 4 + (putText "s-1").length ≤ Frame.maxPayload := by decide +kernel
  obtain ⟨v, hexchange, hclient, -, hmax, hframes⟩ :=
    (both_ends_agree h server "s-1" hhello hsession).1 ⟨3⟩ (by decide) (by decide)
  have hv : v = ⟨3⟩ := congrArg ProtocolVersion.mk
    (UInt8.le_antisymm (VersionRange.contains_iff.mp hclient).2 (hmax ⟨3⟩ (by decide) (by decide)))
  subst hv
  have hrequest := (hframes server (by simp) .request 9 [7] _ (by rfl) [1, 2]).2
  have hnone : ∀ w, ¬ (h.range.contains w ∧ newer.contains w) := by
    intro w hw
    simp only [VersionRange.contains_iff] at hw
    obtain ⟨⟨-, hhigh⟩, hlow, -⟩ := hw
    exact absurd (UInt8.le_trans hlow hhigh) (by decide)
  exact ⟨hhello, hsession, hexchange, hrequest,
    (both_ends_agree h newer "s-1" hhello hsession).2 hnone⟩

end Hello

end RemoteCall
