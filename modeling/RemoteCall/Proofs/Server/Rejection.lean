/-
# Answers to rejected requests

The fault for a request that cannot be read is short.  The fault for an operation that is not known
quotes the key, and the fault for an argument that does not fit names the declared place and quotes
at most one constant, of which every byte may become six.  So a request may be answered with a fault
that is longer than itself.  Below a limit, which depends on the reason and on the texts in the
declarations, the answer fits into a frame; a request close to the largest payload may be answered
with a fault for which there is no frame.  The writer then gives up, and the session is over.
-/
import RemoteCall.Proofs.Projection.Misfits
import RemoteCall.Proofs.Request
import RemoteCall.Proofs.Server.Dispatch
import RemoteCall.Proofs.Wire.Levels
import RemoteCall.Session.Writer

namespace RemoteCall

open Wire

/-! ## Lengths on the wire -/

namespace Wire

lemma length_putText_le {s : String} {k : Nat} (h : s.utf8ByteSize < 128 ^ (k + 1)) :
    (putText s).length ≤ s.utf8ByteSize + (k + 1) := by
  have hword : (UInt64.ofNat (Text.toBytes s).length).toNat < 128 ^ (k + 1) := by
    rw [Text.length_toBytes, UInt64.toNat_ofNat']
    exact (Nat.mod_le _ _).trans_lt h
  have hcount : (putCount (Text.toBytes s).length).length ≤ k + 1 :=
    Varint.length_encodeNat_le hword
  rw [putText, putBytes, List.length_append, Text.length_toBytes]
  rw [Text.length_toBytes] at hcount
  omega

lemma lt_length_putText (s : String) : s.utf8ByteSize < (putText s).length := by
  have hcount := Varint.length_encode_pos (UInt64.ofNat (Text.toBytes s).length)
  rw [Text.length_toBytes] at hcount
  rw [putText, putBytes, putCount, List.length_append, Text.length_toBytes]
  omega

lemma SpellsText.lt_length {s : String} {bytes : List UInt8} (h : SpellsText .any s bytes) :
    s.utf8ByteSize < bytes.length := by
  obtain ⟨front, ⟨w, -, hw⟩, rfl⟩ := h
  have hfront := Varint.Numeral.length_pos hw
  rw [List.length_append, Text.length_toBytes]
  omega

end Wire

namespace Fault

lemma utf8ByteSize_name (c : FaultCode) : c.name.utf8ByteSize ≤ 19 := by
  cases c <;> exact Nat.le_of_ble_eq_true rfl

lemma length_encode_le {f : Fault} (hdetail : f.detail = none)
    (h : f.message.utf8ByteSize < 2 ^ 28) :
    f.encode.length ≤ f.code.name.utf8ByteSize + f.message.utf8ByteSize + 6 := by
  have hname := length_putText_le (k := 0) ((utf8ByteSize_name f.code).trans_lt (by decide))
  have hmessage := length_putText_le (k := 3) (s := f.message) h
  rw [encode, hdetail, List.length_append, List.length_append]
  show _ + (_ + 1) ≤ _
  omega

lemma lt_length_encode (f : Fault) :
    f.code.name.utf8ByteSize + f.message.utf8ByteSize + 1 < f.encode.length := by
  have hname := lt_length_putText f.code.name
  have hmessage := lt_length_putText f.message
  rw [encode, List.length_append, List.length_append]
  omega

end Fault

/-! ## Requests as they are read -/

section Reads

open Reader Context

variable {n : Nat}

lemma reads_pair : Reads n readPair fun _ => True :=
  reads_text.bind fun _ _ => reads_text.map fun _ _ => trivial

lemma reads_token : Reads n readToken fun _ => True :=
  reads_pair.map fun _ _ => trivial

lemma reads_since {α : Type} {element : Reader α} (h : Reads n element fun _ => True)
    (introduced v : ProtocolVersion) (absent : α) :
    Reads n (since introduced v absent element) fun _ => True := by
  unfold since
  split
  · exact h
  · exact settles_pure trivial

lemma reads_location (v : ProtocolVersion) : Reads n (readLocation v) fun _ => True :=
  reads_text.bind fun _ _ => (reads_counted reads_text).bind fun _ _ =>
    (reads_optional reads_text).bind fun _ _ =>
      (reads_since ((reads_optional reads_text).mono fun _ _ => trivial) _ _ _).map
        fun _ _ => trivial

lemma reads_timestamp : Reads n readTimestamp fun _ => True := by
  refine reads_number.bind fun w _ => ?_
  dsimp only
  split
  · exact settles_pure trivial
  · refine settles_throw ?_
    have hlow := (Varint.unfold w).le_toInt
    have hhigh := (Varint.unfold w).toInt_lt
    show (Varint.unfold w).toInt.natAbs < 2 ^ 64
    omega

lemma reads_uuid : Reads n readUuid fun _ => True :=
  (reads_take (by decide)).map fun _ _ => trivial

lemma reads_context (v : ProtocolVersion) : Reads n (Context.read v) fun _ => True := by
  have hchain : Reads n (since .requestChain v none (optional readUuid)) fun _ => True :=
    reads_since ((reads_optional reads_uuid).mono fun _ _ => trivial) _ _ _
  exact (reads_counted reads_token).bind fun _ _ =>
    (reads_optional (reads_location v)).bind fun _ _ =>
    reads_timestamp.bind fun _ _ => reads_flag.bind fun _ _ => reads_uuid.bind fun _ _ =>
    hchain.bind fun _ _ => hchain.bind fun _ _ =>
      (reads_since ((reads_counted reads_pair).mono fun _ _ => trivial) _ _ _).map
        fun _ _ => trivial

lemma reads_key : Reads n Request.readKey fun _ => True :=
  reads_text.bind fun _ _ => reads_text.bind fun _ _ => reads_text.map fun _ _ => trivial

/-- The constants in the arguments of a request are as short as the request. -/
def Arguments.Modest (n : Nat) (a : Arguments) : Prop :=
  (∀ e ∈ a.values, e.2.Modest n) ∧ a.graph.Modest n

lemma reads_arguments : Reads n Request.readArguments (Arguments.Modest n) :=
  (GraphReader.reads_counted (GraphReader.reads_named (GraphReader.reads_value n (maxDepth + 1)))
    Graph.empty (Graph.modest_empty n)).map fun _ h => h

/-- **The law of the reader of requests.** -/
lemma reads_request (v : ProtocolVersion) :
    Reads n (Request.read v) fun r => r.arguments.Modest n :=
  reads_key.bind fun _ _ => (reads_context v).bind fun _ _ => reads_arguments.map fun _ h => h

end Reads

namespace Request

variable {v : ProtocolVersion} {payload : List UInt8} {r : Request}

lemma within_start (hlength : payload.length < 2 ^ 64) :
    Reader.Within payload.length (Cursor.start payload) :=
  ⟨Nat.le_refl _, by rwa [Cursor.start, Nat.zero_add]⟩

/-- The bytes of a key are part of the request. -/
lemma utf8ByteSize_key (h : decode v payload = .ok r) :
    r.key.text.utf8ByteSize < payload.length := by
  have hyields : Reader.Yields readKey fun bytes k => k.text.utf8ByteSize < bytes.length := by
    refine Reader.yields_text.bind fun service s hs => Reader.yields_text.bind fun version s' hs' =>
      Reader.yields_text.bind fun operation s'' hs'' => Reader.yields_pure ?_
    have hs := hs.lt_length
    have hs' := hs'.lt_length
    have hs'' := hs''.lt_length
    have hslash : ("/" : String).utf8ByteSize = 1 := rfl
    simp only [OperationKey.text, String.utf8ByteSize_append, List.length_append, List.length_nil]
    omega
  obtain ⟨c, -, -, hkey, -, -⟩ := exists_run_of_decode h
  obtain ⟨bytes, hbytes, -, hlt⟩ := hyields _ _ _ hkey
  have hpayload : payload.length = bytes.length + c.rest.length := by
    rw [← List.length_append, ← hbytes, Cursor.start]
  omega

/-- Arguments that have been read lead only to objects that were sent, and their constants are as
short as the request. -/
lemma sentSound_of_decode (hlength : payload.length < 2 ^ 64) (h : decode v payload = .ok r) :
    Projection.SentSound r.arguments.graph payload.length (r.arguments.values.map Prod.snd) := by
  obtain ⟨c, hrun⟩ := exists_run_read_of_decode h
  obtain ⟨-, hvalues, hgraph⟩ := (reads_request v _ (within_start hlength)).1 r c hrun
  have hwalk := (asRead_of_decode h).walk
  constructor
  · intro w hw
    obtain ⟨e, he, rfl⟩ := List.mem_map.mp hw
    exact ⟨fun id hid => List.mem_range.mp (hwalk.covers _ hw id hid), hvalues e he⟩
  · intro id o ho w hw
    obtain ⟨e, he, rfl⟩ := List.mem_map.mp hw
    have hid := List.mem_range.mpr (Graph.lt_size_of_get? ho)
    obtain ⟨o', ho', hmentions⟩ := hwalk.closed id hid List.not_mem_nil
    rw [ho] at ho'
    cases ho'
    exact ⟨fun i hi => List.mem_range.mp (hmentions e he i hi), hgraph id o ho e.2 hw⟩

/-! ## Lengths of faults -/

lemma length_fault_of_decode {e : Failure} (hlength : payload.length < 2 ^ 64)
    (h : decode v payload = .error e) : e.toFault.encode.length ≤ 140 := by
  rw [decode, Reader.run] at h
  split at h <;> cases h
  rename_i m hrun
  rcases bind_eq_error.mp hrun with hrun | ⟨p, -, hput⟩
  · have hmessage := Malformed.utf8ByteSize_message
      ((reads_request v _ (within_start hlength)).2 m hrun)
    have hencode := Fault.length_encode_le (f := m.toFailure.toFault) rfl
      (hmessage.trans_lt (by decide))
    have hname : m.toFailure.toFault.code.name.utf8ByteSize = 6 := rfl
    have htext : m.toFailure.toFault.message = m.message := rfl
    rw [htext] at hencode
    omega
  · cases hput

lemma length_fault_of_lookUp {o : Operations} {e : Failure} (hsize : payload.length < 2 ^ 27)
    (hdecode : decode v payload = .ok r) (h : o.lookUp r.key = .error e) :
    e.toFault.encode.length ≤ payload.length + 39 := by
  have hkey := utf8ByteSize_key hdecode
  rw [Operations.lookUp] at h
  split at h <;> cases h
  have hmessage : ("No such operation: " ++ r.key.text).utf8ByteSize =
      19 + r.key.text.utf8ByteSize := by
    rw [String.utf8ByteSize_append]
    rfl
  have hname : FaultCode.noSuchOperation.name.utf8ByteSize = 15 := rfl
  have hencode := Fault.length_encode_le
    (f := { code := .noSuchOperation, message := "No such operation: " ++ r.key.text }) rfl
    (by dsimp only; omega)
  dsimp only at hencode
  show (Fault.encode { code := .noSuchOperation, message := _ }).length ≤ _
  omega

lemma length_fault_of_bind {registry : Registry} {options : DecodeOptions}
    {params : List FieldDecl} {b : Nat} {e : Failure}
    (hsize : 6 * payload.length + b + 48 < 2 ^ 28) (hregistry : registry.Labelled b)
    (hparams : ∀ p ∈ params, p.name.utf8ByteSize + p.tag.text.utf8ByteSize ≤ b)
    (hdecode : decode v payload = .ok r) (h : r.bind registry options params = .error e) :
    e.toFault.encode.length ≤ 6 * payload.length + b + 73 := by
  rw [bind] at h
  split at h <;> cases h
  rename_i m hm
  have hsent := sentSound_of_decode (by omega) hdecode
  have hmessage := Projection.Misfit.utf8ByteSize_fault
    (Projection.within_of_bind hregistry hparams hsent hm)
  have hname := Fault.utf8ByteSize_name m.toFailure.toFault.code
  have hdetail : m.toFailure.toFault.detail = none := by
    cases m <;> rfl
  have hencode := Fault.length_encode_le hdetail (by omega)
  omega

end Request

/-! ## Answers -/

/-- A frame can be written: a writer writes it and goes on, and the session stays as it is, but for
what it counts. -/
def Frame.Writable (f : Frame) : Prop :=
  ∃ bytes, f.encode = .ok bytes ∧ ∀ (w : Writer) (now : Duration) (s : Session),
    (w.goTo (.writing f)).step now s .whole =
      ({ sink := w.sink.write bytes .whole, stage := .polling }, s.recordWrite now bytes.length)

/-- The texts in the declarations of the operations have at most `b` bytes. -/
structure Operations.Labelled (b : Nat) (o : Operations) : Prop where
  registry : o.registry.Labelled b
  params : ∀ p ∈ o.registered, ∀ d ∈ p.decl.params,
    d.name.utf8ByteSize + d.tag.text.utf8ByteSize ≤ b

namespace Dispatcher

lemma writable_faultFrame {v : ProtocolVersion} {c : UInt64} {f : Fault}
    (h : f.encode.length ≤ Frame.maxPayload) : (faultFrame v c f).Writable := by
  have hencode : (faultFrame v c f).encode =
      .ok ((faultFrame v c f).header ++ f.encode) := if_pos h
  refine ⟨_, hencode, fun w now s => ?_⟩
  show (w.goTo (.writing (faultFrame v c f))).writeOne now s (faultFrame v c f) .whole .polling = _
  unfold Writer.writeOne
  rw [hencode]
  rfl

variable {d : Dispatcher} {s : Session} {v : ProtocolVersion} {request : Frame} {e : Failure}

lemma prepare_of_unknown {r : Request} (hdecode : Request.decode v request.payload = .ok r)
    (h : d.operations.lookUp r.key = .error e) : d.prepare s v request.payload = .error e :=
  bind_eq_error.mpr (Or.inr ⟨r, hdecode, bind_eq_error.mpr (Or.inl h)⟩)

lemma answer_of_rejected (h : d.prepare s v request.payload = .error e)
    (outcome : HandlerOutcome) :
    d.answer s v request outcome = faultFrame v request.correlation e.toFault := by
  rw [answer, h]
  rfl

/-- **The answer to a rejected request can be written**, unless the request is close to the largest
payload: always if it cannot be read; if its operation is not known, up to 39 bytes below the
largest payload; and if its arguments do not fit, up to a sixth of it, less what the texts in the
declarations take. -/
theorem writable_answer_of_rejected (hrejected : d.prepare s v request.payload = .error e)
    (hsize : request.payload.length ≤ Frame.maxPayload) (outcome : HandlerOutcome) :
    ((∀ r, Request.decode v request.payload ≠ .ok r) →
      (d.answer s v request outcome).Writable) ∧
    (∀ r, Request.decode v request.payload = .ok r →
      (∀ operation, d.operations.lookUp r.key ≠ .ok operation) →
      request.payload.length + 39 ≤ Frame.maxPayload →
      (d.answer s v request outcome).Writable) ∧
    ∀ b, d.operations.Labelled b → 6 * request.payload.length + b + 73 ≤ Frame.maxPayload →
      (d.answer s v request outcome).Writable := by
  have hmax : Frame.maxPayload = 2 ^ 26 := rfl
  rw [answer_of_rejected hrejected outcome]
  -- a fault is short enough for each reason that the request may have been rejected for
  have hread : ∀ m, Request.decode v request.payload = .error m → m.toFault.encode.length ≤ 140 :=
    fun m hm => Request.length_fault_of_decode (by omega) hm
  have hlookUp : ∀ r m, Request.decode v request.payload = .ok r →
      d.operations.lookUp r.key = .error m →
      m.toFault.encode.length ≤ request.payload.length + 39 :=
    fun r m hr hm => Request.length_fault_of_lookUp (by omega) hr hm
  rcases bind_eq_error.mp hrejected with hdecode | ⟨r, hdecode, h⟩
  · have hlength := hread e hdecode
    have hwritable := writable_faultFrame (v := v) (c := request.correlation)
      (hlength.trans (by decide))
    exact ⟨fun _ => hwritable, fun _ _ _ _ => hwritable, fun _ _ _ => hwritable⟩
  · refine ⟨fun hnone => absurd hdecode (hnone r), ?_, ?_⟩
    · intro r' hr' hunknown hroom
      rw [hdecode] at hr'
      cases hr'
      rcases bind_eq_error.mp h with hlook | ⟨operation, hlook, -⟩
      · exact writable_faultFrame ((hlookUp r e hdecode hlook).trans hroom)
      · exact absurd hlook (hunknown operation)
    · intro b hlabelled hroom
      rcases bind_eq_error.mp h with hlook | ⟨operation, hlook, h⟩
      · exact writable_faultFrame ((hlookUp r e hdecode hlook).trans (by omega))
      rcases bind_eq_error.mp h with hbind | ⟨arguments, -, hput⟩
      · have hmem : operation ∈ d.operations.registered := by
          rw [Operations.lookUp] at hlook
          split at hlook <;> cases hlook
          exact List.mem_of_find?_eq_some ‹_›
        exact writable_faultFrame ((Request.length_fault_of_bind (by omega) hlabelled.registry
          (hlabelled.params operation hmem) hdecode hbind).trans hroom)
      · cases hput

/-- Bytes that are no request, a request for an operation that is not known, and one with a constant
that its enumeration lacks. -/
theorem writable_answer_of_rejected_three :
    let key : OperationKey := ⟨"S", "1", "f"⟩
    let d : Dispatcher :=
      { operations :=
          { registry := { enums := [{ name := "Color", constants := ["RED"] }] }
            registered := [{ decl := { key, params := [⟨"c", .enum "Color", true⟩] },
                             handler := fun _ => .brokeDown }] }
        options := { strictEnums := true } }
    let s : Session :=
      { id := "s", role := .server, remote := .v4 127 0 0 1 9000, state := .active }
    let ask (key : OperationKey) (constant : String) : Frame :=
      .make .oldest .request 7 (Request.putKey key ++ (Context.encode .oldest {} ++
        [1, 1, 99, 7] ++ putText constant))
    let garbled : Frame := .make .oldest .request 7 [255]
    let unknown : Frame := ask { key with operation := "g" } "RED"
    let misfit : Frame := ask key "BLUE"
    (∀ f ∈ [garbled, unknown, misfit], f.payload.length ≤ Frame.maxPayload ∧
      ∃ e, d.prepare s .oldest f.payload = .error e) ∧
    d.operations.Labelled 20 ∧
    ∀ outcome, ∀ f ∈ [garbled, unknown, misfit], (d.answer s .oldest f outcome).Writable := by
  intro key d s ask garbled unknown misfit
  have hsize : ∀ f ∈ [garbled, unknown, misfit], f.payload.length ≤ Frame.maxPayload := by
    decide +kernel
  have hrejected : ∀ f ∈ [garbled, unknown, misfit],
      ∃ e, d.prepare s .oldest f.payload = .error e := by
    have h : ∀ f ∈ [garbled, unknown, misfit],
        (d.prepare s .oldest f.payload).toBool = false := by
      decide +kernel
    exact fun f hf => exists_eq_error (h f hf)
  have hlabelled : d.operations.Labelled 20 :=
    ⟨fun schema hschema => absurd hschema List.not_mem_nil, by decide +kernel⟩
  refine ⟨fun f hf => ⟨hsize f hf, hrejected f hf⟩, hlabelled, fun outcome => ?_⟩
  rw [List.forall_mem_cons, List.forall_mem_cons, List.forall_mem_singleton]
  refine ⟨?_, ?_, ?_⟩
  · obtain ⟨e, he⟩ := hrejected garbled (by simp)
    refine (writable_answer_of_rejected he (hsize garbled (by simp)) outcome).1 fun r hr => ?_
    have h : (Request.decode .oldest garbled.payload).toBool = false := by decide +kernel
    rw [hr] at h
    cases h
  · obtain ⟨e, he⟩ := hrejected unknown (by simp)
    obtain ⟨r, hr⟩ : ∃ r, Request.decode .oldest unknown.payload = .ok r := by
      have h : (Request.decode .oldest unknown.payload).toBool = true := by decide +kernel
      rcases hdecode : Request.decode .oldest unknown.payload with m | r
      · rw [hdecode] at h
        cases h
      · exact ⟨r, rfl⟩
    refine (writable_answer_of_rejected he (hsize unknown (by simp)) outcome).2.1 r hr
      (fun operation hoperation => ?_) (by decide +kernel)
    have h : (Request.decode .oldest unknown.payload >>= fun r =>
        d.operations.lookUp r.key).toBool = false := by
      decide +kernel
    rw [hr] at h
    rw [show (Except.ok r >>= fun r => d.operations.lookUp r.key) =
      d.operations.lookUp r.key from rfl, hoperation] at h
    cases h
  · obtain ⟨e, he⟩ := hrejected misfit (by simp)
    exact (writable_answer_of_rejected he (hsize misfit (by simp)) outcome).2.2 20 hlabelled
      (by decide +kernel)

/-! ## A request close to the largest payload -/

/-- **A key that is too long to be quoted costs the session**: the fault does not fit into a frame,
so the writer gives up. -/
lemma refused_answer_of_long_key {r : Request}
    (hdecode : Request.decode v request.payload = .ok r)
    (hunknown : d.operations.lookUp r.key = .error e)
    (hlong : Frame.maxPayload < r.key.text.utf8ByteSize + 36) (outcome : HandlerOutcome) :
    let answer := d.answer s v request outcome
    (∀ bytes, answer.encode ≠ .ok bytes) ∧
      ∀ (w : Writer) (now : Duration) (sink : WriteOutcome),
        (w.goTo (.writing answer)).step now s sink = (w.goTo (.shutting .failed), s.closed) := by
  intro answer
  have hanswer : answer = faultFrame v request.correlation e.toFault :=
    answer_of_rejected (prepare_of_unknown hdecode hunknown) outcome
  have htoo : Frame.maxPayload < answer.payload.length := by
    rw [hanswer]
    show Frame.maxPayload < e.toFault.encode.length
    rw [Operations.lookUp] at hunknown
    split at hunknown <;> cases hunknown
    have hencode := Fault.lt_length_encode
      { code := .noSuchOperation, message := "No such operation: " ++ r.key.text }
    have hname : FaultCode.noSuchOperation.name.utf8ByteSize = 15 := rfl
    have hmessage : ("No such operation: " : String).utf8ByteSize = 19 := rfl
    simp only [String.utf8ByteSize_append] at hencode
    show Frame.maxPayload <
      (Fault.encode { code := .noSuchOperation, message := "No such operation: " ++ _ }).length
    omega
  have hencode : answer.encode = .error (.payloadTooLong answer.payload.length) :=
    if_neg (Nat.not_le_of_lt htoo)
  refine ⟨fun bytes hbytes => ?_, fun w now sink => ?_⟩
  · rw [hencode] at hbytes
    cases hbytes
  · have hstep : (w.goTo (.writing answer)).step now s sink =
        (w.goTo (.writing answer)).writeOne now s answer sink .polling := by
      rw [hanswer]
      rfl
    rw [hstep]
    unfold Writer.writeOne
    rw [hencode]
    rfl

/-- A request of the largest payload names an operation that is not known.  The key fills the
request, and the fault quotes it behind some words, so the answer is too long for a frame. -/
theorem refused_answer_of_largest_request :
    let name := String.ofList (List.replicate 67108834 'a')
    let d : Dispatcher := { operations := { registry := {} } }
    let s : Session :=
      { id := "s", role := .server, remote := .v4 127 0 0 1 9000, version := some ⟨5⟩
        state := .active }
    let request : Frame :=
      .make ⟨5⟩ .request 7 (Request.putKey ⟨name, "", ""⟩ ++ (Context.encode ⟨5⟩ {} ++ [0]))
    request.payload.length ≤ Frame.maxPayload ∧
      d.prepare s ⟨5⟩ request.payload =
        .error (.unknownOperation (OperationKey.text ⟨name, "", ""⟩)) ∧
      ∀ outcome, let answer := d.answer s ⟨5⟩ request outcome
        (∀ bytes, answer.encode ≠ .ok bytes) ∧
        ∀ (w : Writer) (now : Duration) (sink : WriteOutcome),
          (w.goTo (.writing answer)).step now s sink =
            (w.goTo (.shutting .failed), s.closed) ∧ s.closed.state = .disconnected := by
  intro name d s request
  have hname : name.utf8ByteSize = 67108834 := Text.utf8ByteSize_replicate _
  clear_value name
  have hpayload : request.payload =
      Request.putKey ⟨name, "", ""⟩ ++ (Context.encode ⟨5⟩ {} ++ [0]) := rfl
  have hlength : request.payload.length ≤ Frame.maxPayload := by
    have htext := length_putText_le (s := name) (k := 3) (by omega)
    have hempty : (putText "").length = 1 := by decide +kernel
    have hcontext : (Context.encode ⟨5⟩ {}).length = 23 := by decide +kernel
    have hmax : Frame.maxPayload = 67108864 := rfl
    simp only [hpayload, Request.putKey, List.length_append, List.length_singleton]
    omega
  obtain ⟨r, hdecode, hkey⟩ : ∃ r, Request.decode ⟨5⟩ request.payload = .ok r ∧
      r.key = ⟨name, "", ""⟩ := by
    have hmax : Frame.maxPayload < 2 ^ 64 := by decide
    have hword := hlength.trans_lt hmax
    simp only [hpayload, List.length_append] at hword
    have harguments : Reader.Takes Request.readArguments [0] {} := by
      intro offset rest trusting
      cases trusting <;> rfl
    have hread : (Request.read ⟨5⟩).Takes request.payload _ :=
      (Request.recovers_key ⟨name, "", ""⟩ (by omega)).bind
        ((Context.recovers_context ⟨5⟩ {} (by omega)).bind
          (harguments.map (Request.mk ⟨name, "", ""⟩ (Context.asSent ⟨5⟩ {}))))
    have hrun := hread 0 [] false
    rw [List.append_nil] at hrun
    refine ⟨Request.mk ⟨name, "", ""⟩ (Context.asSent ⟨5⟩ {}) {}, ?_, rfl⟩
    rw [Request.decode, Reader.run, Cursor.start, hrun]
    rfl
  have hunknown : d.operations.lookUp r.key =
      .error (.unknownOperation (OperationKey.text ⟨name, "", ""⟩)) := by
    rw [hkey]
    rfl
  refine ⟨hlength, prepare_of_unknown hdecode hunknown, fun outcome => ?_⟩
  have hlong : Frame.maxPayload < r.key.text.utf8ByteSize + 36 := by
    have hmax : Frame.maxPayload = 67108864 := rfl
    have hslash : ("/" : String).utf8ByteSize = 1 := rfl
    have hempty : ("" : String).utf8ByteSize = 0 := rfl
    rw [hkey, OperationKey.text]
    simp only [String.utf8ByteSize_append]
    omega
  obtain ⟨hencode, hstep⟩ := refused_answer_of_long_key (s := s) hdecode hunknown hlong outcome
  exact ⟨hencode, fun w now sink => ⟨hstep w now sink, rfl⟩⟩

end Dispatcher

end RemoteCall
