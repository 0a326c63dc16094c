/-
# Requests come back from the wire

A request payload is a key, a context and arguments, one behind the other without a delimiter.  The
key and the context are taken to the byte, so the arguments are read from where they were written;
they share one graph, and so do the arguments that are read.
-/
import RemoteCall.Message
import RemoteCall.Proofs.Context
import RemoteCall.Proofs.Wire.RoundTrip

namespace RemoteCall.Request

open Wire Wire.Reader

lemma recovers_key (k : OperationKey) : Recovers readKey (putKey k) k := by
  rw [putKey, List.append_assoc]
  exact (recovers_text k.service).bind ((recovers_text k.version).bind
    ((recovers_text k.operation).map (OperationKey.mk k.service k.version)))

/-- Arguments that are written over one graph are read over one graph, and it is a copy of what they
lead to. -/
lemma recovers_arguments {a : Arguments} {bytes : List UInt8} (h : putArguments a = .ok bytes)
    (hlen : bytes.length < 2 ^ 64) :
    ∃ (f : Nat → Nat) (decoded : Graph),
      a.graph.IsCopy f (a.values.map Prod.snd) decoded ∧
      Takes readArguments bytes ⟨decoded, a.values.map (Value.renameField f)⟩ := by
  obtain ⟨seen, hrun⟩ : ∃ seen,
      StateT.run (Writer.counted (Writer.named (Writer.outermost a.graph)) a.values) [] =
        .ok (bytes, seen) := by
    rw [putArguments, Writer.run] at h
    obtain ⟨⟨b, seen⟩, hrun, hb⟩ := bind_eq_ok.mp h
    cases hb
    exact ⟨seen, hrun⟩
  have hvisits := Writer.visits_fields (Writer.visits_value a.graph (maxDepth + 1)) a.values
  obtain ⟨f, decoded, hcopy, htakes⟩ := Mirrors.takes_copy hvisits
    (fun f => Mirrors.counted fun e _ => Mirrors.named (Mirrors.value a.graph f (maxDepth + 1)) e)
    hrun hlen
  exact ⟨f, decoded, hcopy, Takes.bind_nil htakes (takes_pure _)⟩

/-- **Requests come back at every version.**  The payload of a request is decoded, at the version at
which it was encoded, to a request with the same key, the context as it arrives at that version, and
the same arguments in the same order, but for the numbers of their objects: the graph that was read
is a copy of what all the arguments lead to.  The context on its own is taken to the byte, whatever
follows it.  Lengths on the wire are words, so there must be fewer than `2 ^ 64` bytes. -/
theorem decode_encoded_request (v : ProtocolVersion) :
    (∀ (r : Request) (bytes : List UInt8), r.encode v = .ok bytes → bytes.length < 2 ^ 64 →
      ∃ (f : Nat → Nat) (decoded : Graph),
        r.arguments.graph.IsCopy f (r.arguments.values.map Prod.snd) decoded ∧
        decode v bytes = .ok
          { key := r.key
            context := r.context.asSent v
            arguments := ⟨decoded, r.arguments.values.map (Value.renameField f)⟩ }) ∧
    ∀ c : Context, (c.encode v).length < 2 ^ 64 →
      (Context.read v).Takes (c.encode v) (c.asSent v) := by
  refine ⟨?_, Context.recovers_context v⟩
  intro r bytes hencode hlen
  obtain ⟨body, hbody, rfl⟩ : ∃ body, putArguments r.arguments = .ok body ∧
      bytes = putKey r.key ++ (r.context.encode v ++ body) := by
    rw [encode] at hencode
    split at hencode
    · rename_i body hbody
      cases hencode
      exact ⟨body, hbody, rfl⟩
    · cases hencode
  rw [List.length_append, List.length_append] at hlen
  obtain ⟨f, decoded, hcopy, harguments⟩ := recovers_arguments hbody (by omega)
  refine ⟨f, decoded, hcopy, ?_⟩
  have hkey := recovers_key r.key (by omega)
  have hcontext := Context.recovers_context v r.context (by omega)
  have hread : (read v).Takes (putKey r.key ++ (r.context.encode v ++ body))
      ⟨r.key, r.context.asSent v, decoded, r.arguments.values.map (Value.renameField f)⟩ :=
    hkey.bind (hcontext.bind (harguments.map (Request.mk r.key (r.context.asSent v))))
  have hrun := hread 0 [] false
  rw [List.append_nil] at hrun
  rw [decode, Reader.run, Cursor.start, hrun]
  rfl

/-- Two arguments share a ring of two objects; the third version drops the attributes of the
context, the first one also the inferred country and the chain of requests. -/
theorem decode_encoded_request_ring :
    let c : Context :=
      { identity := [⟨"user", "alice"⟩]
        location := some ⟨"h", ["p"], some "GB", some "IE"⟩
        received := ⟨-1500001, by decide⟩
        traced := true
        request := ⟨⟨7⟩, some ⟨5⟩, some ⟨6⟩⟩
        additional := .ofList [("tenant", "blue")] }
    let g : Graph := ⟨#[⟨"A", [("b", .object 2)]⟩, ⟨"C", []⟩, ⟨"B", [("a", .object 0)]⟩]⟩
    let values : Named Value := [("x", .object 2), ("y", .list [.object 0])]
    let body : List UInt8 :=
      [2, 1, 120, 11, 1, 66, 1, 1, 97, 11, 1, 65, 1, 1, 98, 12, 0, 1, 121, 8, 1, 12, 1]
    let bytes : List UInt8 := putKey ⟨"Clock", "1", "zone"⟩ ++ (c.encode ⟨3⟩ ++ body)
    (Request.mk ⟨"Clock", "1", "zone"⟩ c ⟨g, values⟩).encode ⟨3⟩ = .ok bytes ∧
      bytes.length < 2 ^ 64 ∧
      (∃ (f : Nat → Nat) (decoded : Graph), g.IsCopy f [.object 2, .list [.object 0]] decoded ∧
        decode ⟨3⟩ bytes = .ok
          { key := ⟨"Clock", "1", "zone"⟩
            context := { c with received := ⟨-2000000, by decide⟩, additional := .ofList [] }
            arguments :=
              ⟨decoded, [("x", .object (f 2)), ("y", .list [.object (f 0)])]⟩ }) ∧
      (c.encode ⟨1⟩).length < 2 ^ 64 ∧
      (Context.read ⟨1⟩).Takes (c.encode ⟨1⟩)
        { c with
          location := some ⟨"h", ["p"], some "GB", none⟩
          received := ⟨-2000000, by decide⟩
          request := ⟨⟨7⟩, none, none⟩
          additional := .ofList [] } := by
  intro c g values body bytes
  have hbody : putArguments ⟨g, values⟩ = .ok body := by decide +kernel
  have hencode : (Request.mk ⟨"Clock", "1", "zone"⟩ c ⟨g, values⟩).encode ⟨3⟩ = .ok bytes := by
    rw [encode, hbody]
  have hbytes : bytes.length < 2 ^ 64 := by decide +kernel
  have hlen : (c.encode ⟨1⟩).length < 2 ^ 64 := by decide +kernel
  exact ⟨hencode, hbytes, (decode_encoded_request ⟨3⟩).1 _ bytes hencode hbytes, hlen,
    (decode_encoded_request ⟨1⟩).2 c hlen⟩

end RemoteCall.Request
