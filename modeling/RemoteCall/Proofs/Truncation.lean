/-
# Payloads that end too soon

A reader looks at the bytes that are left only to see that there are enough of them, so what it
gives it also gives when more bytes follow, and it leaves these unread.  If the front of a payload
were read, the whole payload would be read to the same place, and the bytes that were cut off would
be left; but a payload that was written is read to its last byte.
-/
import RemoteCall.Proofs.Request
import RemoteCall.Proofs.Wire.Grammar

namespace RemoteCall

open Wire

/-- A payload with more bytes behind it. -/
def Wire.Cursor.extend (c : Cursor) (more : List UInt8) : Cursor :=
  { c with rest := c.rest ++ more }

namespace Wire.Reader

variable {α β : Type} {r : Reader α}

/-- What the reader gives it also gives when more bytes follow, and it leaves these unread. -/
def Persists (r : Reader α) : Prop :=
  ∀ c a c', StateT.run r c = .ok (a, c') →
    ∀ more, StateT.run r (c.extend more) = .ok (a, c'.extend more)

lemma persists_pure (a : α) : Persists (pure a) := by
  intro c a' c' hrun more
  cases hrun
  rfl

lemma persists_throw (e : Malformed) : Persists (throw e : Reader α) := by
  intro c a c' hrun
  cases hrun

lemma Persists.bind {k : α → Reader β} (hr : Persists r) (hk : ∀ a, Persists (k a)) :
    Persists (r >>= k) := by
  intro c b c'' hrun more
  obtain ⟨a, c', ha, hb⟩ := run_bind_eq_ok.mp hrun
  exact run_bind_eq_ok.mpr ⟨a, _, hr c a c' ha more, hk a c' b c'' hb more⟩

/-- A reader that takes exactly the bytes of its element does not look behind them. -/
lemma Yields.persists {P : List UInt8 → α → Prop} (hr : Yields r P)
    (htakes : ∀ bytes a, P bytes a → Takes r bytes a) : Persists r := by
  rintro ⟨offset, rest, trusting⟩ a ⟨offset', rest', trusting'⟩ hrun more
  obtain ⟨bytes, hrest, -, hP⟩ := hr _ a _ hrun
  have hbytes := htakes bytes a hP
  dsimp only at hrest
  subst hrest
  rw [hbytes offset rest' trusting] at hrun
  cases hrun
  have hmore := hbytes offset (rest' ++ more) trusting
  rwa [← List.append_assoc] at hmore

/-! ## Elements -/

lemma persists_flag : Persists flag := by
  refine yields_flag.persists ?_
  rintro _ b rfl
  exact takes_flag b

lemma persists_take (n : Nat) : Persists (take n) := by
  refine (yields_take n).persists ?_
  rintro bytes _ ⟨rfl, rfl⟩
  exact takes_take bytes

lemma persists_number : Persists number := yields_number.persists fun _ _ => takes_numeral

lemma persists_text : Persists text := yields_text.persists fun _ _ => SpellsText.takes

/-- A count is compared with the bytes that are left, and there are only more of them. -/
lemma persists_count : Persists count := by
  refine persists_number.bind fun w c n c' hrun more => ?_
  rw [StateT.run_bind, StateT.run_get] at hrun ⊢
  have hrun : StateT.run (if (c.trusting || decide (w.toNat ≤ c.rest.length)) = true
      then pure w.toNat else throw _ : Reader Nat) c = .ok (n, c') := hrun
  split at hrun
  · next henough =>
    cases hrun
    have hmore : (c.trusting || decide (w.toNat ≤ (c.rest ++ more).length)) = true := by
      rw [Bool.or_eq_true, decide_eq_true_iff] at henough ⊢
      rw [List.length_append]
      exact henough.imp_right (Nat.le_add_right_of_le ·)
    show StateT.run (if (c.trusting || decide (w.toNat ≤ (c.rest ++ more).length)) = true
      then pure w.toNat else throw _ : Reader Nat) _ = _
    rw [if_pos hmore]
    rfl
  · cases hrun

lemma persists_optional (hr : Persists r) : Persists (optional r) := by
  refine persists_flag.bind fun b => ?_
  cases b
  · exact persists_pure none
  · exact hr.bind fun a => persists_pure (some a)

lemma persists_times (hr : Persists r) (n : Nat) : Persists (times r n) := by
  induction n with
  | zero => exact persists_pure []
  | succ n ih => exact hr.bind fun a => ih.bind fun rest => persists_pure (a :: rest)

lemma persists_counted (hr : Persists r) : Persists (counted r) :=
  persists_count.bind (persists_times hr)

/-- Values are taken exactly, so a reader of them does not look behind them. -/
lemma persists_of_form {read : GraphReader α} {F : Form α}
    (hyields : ∀ g, GraphReader.Yields read g (F g)) (htaken : F.TakenBy read) (g : Graph) :
    Persists (StateT.run read g) :=
  Yields.persists (hyields g) fun bytes p hp => (htaken g bytes p.1 p.2 hp).2

/-- **What was cut short is refused**, where the whole of it is taken. -/
lemma Takes.refused_of_front {bytes front : List UInt8} {a : α} (hbytes : Takes r bytes a)
    (hr : Persists r) (hfront : front <+: bytes) (hne : front ≠ bytes) :
    ∃ e, r.run front = .error e := by
  rcases hrun : StateT.run r (Cursor.start front) with e | ⟨a', c'⟩
  · exact ⟨e, by rw [Reader.run, hrun]; rfl⟩
  · exfalso
    obtain ⟨more, rfl⟩ := hfront
    -- the same end is reached in the whole, with the bytes that were cut off left unread
    have hwhole := hbytes 0 [] false
    have hmore : StateT.run r ⟨0, front ++ more, false⟩ = .ok (a', c'.extend more) :=
      hr _ a' c' hrun more
    rw [List.append_nil, hmore] at hwhole
    have hrest : c'.rest ++ more = [] := congrArg (fun p => p.2.rest) (Except.ok.inj hwhole)
    have hnil := (List.append_eq_nil_iff.mp hrest).2
    rw [hnil, List.append_nil] at hne
    exact hne rfl

end Wire.Reader

open Wire.Reader

/-! ## Contexts -/

namespace Context

lemma persists_since {α : Type} {introduced v : ProtocolVersion} {absent : α} {element : Reader α}
    (h : Persists element) : Persists (since introduced v absent element) := by
  rw [since]
  split
  · exact h
  · exact persists_pure absent

lemma persists_pair : Persists readPair :=
  persists_text.bind fun first => persists_text.bind fun second => persists_pure (first, second)

lemma persists_location (v : ProtocolVersion) : Persists (readLocation v) := by
  have hcountry : Persists (optional text) := persists_optional persists_text
  exact persists_text.bind fun _ => (persists_counted persists_text).bind fun _ =>
    hcountry.bind fun _ => (persists_since hcountry).bind fun _ => persists_pure _

lemma persists_timestamp : Persists readTimestamp := by
  refine persists_number.bind fun w => ?_
  dsimp only
  split
  · exact persists_pure _
  · exact persists_throw _

lemma persists_uuid : Persists readUuid := (persists_take 16).bind fun _ => persists_pure _

lemma persists_context (v : ProtocolVersion) : Persists (read v) := by
  have htoken : Persists readToken := persists_pair.bind fun _ => persists_pure _
  have hchain : Persists (since .requestChain v none (optional readUuid)) :=
    persists_since (persists_optional persists_uuid)
  have hadditional : Persists (since .additionalContext v [] (counted readPair)) :=
    persists_since (persists_counted persists_pair)
  exact (persists_counted htoken).bind fun _ =>
    (persists_optional (persists_location v)).bind fun _ => persists_timestamp.bind fun _ =>
    persists_flag.bind fun _ => persists_uuid.bind fun _ => hchain.bind fun _ =>
    hchain.bind fun _ => hadditional.bind fun _ => persists_pure _

end Context

/-! ## Requests, results and faults -/

lemma Request.persists_read (v : ProtocolVersion) : Persists (Request.read v) := by
  have hkey : Persists readKey :=
    persists_text.bind fun _ => persists_text.bind fun _ => persists_text.bind fun _ =>
      persists_pure _
  have hvalues : Persists (StateT.run
      (GraphReader.counted (GraphReader.named GraphReader.outermost)) Graph.empty) :=
    persists_of_form
      (GraphReader.yields_counted (GraphReader.yields_named (GraphReader.yields_value _)))
      (Form.Counted.takenBy (Form.Field.takenBy (Form.value_takenBy _))) _
  have harguments : Persists readArguments := hvalues.bind fun _ => persists_pure _
  exact hkey.bind fun _ => (Context.persists_context v).bind fun _ =>
    harguments.bind fun _ => persists_pure _

lemma Returned.persists_read : Persists Returned.read :=
  Persists.bind (persists_of_form (GraphReader.yields_value _) (Form.value_takenBy _) Graph.empty)
    fun _ => persists_pure _

lemma Fault.persists_read : Persists Fault.read :=
  persists_text.bind fun _ => persists_text.bind fun _ =>
    (persists_optional persists_text).bind fun _ => persists_pure _

/-- What a request payload holds is taken from it to the last byte. -/
lemma Request.exists_takes_of_encode {v : ProtocolVersion} {r : Request} {bytes : List UInt8}
    (hencode : r.encode v = .ok bytes) (hlen : bytes.length < 2 ^ 64) :
    ∃ sent, Takes (Request.read v) bytes sent := by
  rw [encode] at hencode
  split at hencode
  · next body hbody =>
    cases hencode
    rw [List.length_append, List.length_append] at hlen
    obtain ⟨_, _, -, harguments⟩ := recovers_arguments hbody (by omega)
    have hkey := recovers_key r.key (by omega)
    have hcontext := Context.recovers_context v r.context (by omega)
    exact ⟨_, hkey.bind (hcontext.bind (harguments.map _))⟩
  · cases hencode

lemma Returned.exists_takes_of_encode {r : Returned} {bytes : List UInt8}
    (hencode : r.encode = .ok bytes) (hlen : bytes.length < 2 ^ 64) :
    ∃ sent, Takes Returned.read bytes sent := by
  obtain ⟨seen, hrun⟩ : ∃ seen,
      StateT.run (Writer.outermost r.graph r.value) [] = .ok (bytes, seen) := by
    rw [encode] at hencode
    split at hencode
    · next b hb =>
      cases hencode
      rw [Writer.run] at hb
      obtain ⟨⟨b', seen⟩, hrun, hb⟩ := bind_eq_ok.mp hb
      cases hb
      exact ⟨seen, hrun⟩
    · cases hencode
  obtain ⟨_, _, -, htakes⟩ := Mirrors.takes_copy (Writer.visits_value r.graph _ r.value)
    (fun f => Mirrors.value r.graph f _ r.value) hrun hlen
  exact ⟨_, Takes.map htakes _⟩

/-- Faults come back. -/
lemma Fault.recovers_fault (f : Fault) : Recovers Fault.read f.encode f := by
  have hread : Recovers Fault.read f.encode { f with code := .ofName f.code.name } :=
    (recovers_text f.code.name).bind ((recovers_text f.message).bind
      ((recovers_optional_self recovers_text f.detail).map _))
  rwa [FaultCode.ofName_name] at hread

/-- **A payload that was cut short is refused.**  No front of the payload of a request, a result or
a fault, short of the whole of it, is decoded: each is refused as a malformed payload, wherever it
was cut.  Lengths on the wire are words, so there must be fewer than `2 ^ 64` bytes. -/
theorem refused_of_truncated (registry : Registry) (options : DecodeOptions)
    (returns : Option TypeTag) :
    (∀ (v : ProtocolVersion) (r : Request) (bytes front : List UInt8), r.encode v = .ok bytes →
      bytes.length < 2 ^ 64 → front <+: bytes → front ≠ bytes →
      ∃ text, Request.decode v front = .error (.marshalling text)) ∧
    (∀ (r : Returned) (bytes front : List UInt8), r.encode = .ok bytes →
      bytes.length < 2 ^ 64 → front <+: bytes → front ≠ bytes →
      ∃ text, Returned.decode registry options returns front = .error (.marshalling text)) ∧
    ∀ (f : Fault) (front : List UInt8), f.encode.length < 2 ^ 64 → front <+: f.encode →
      front ≠ f.encode → ∃ text, Fault.decode front = .error (.marshalling text) := by
  refine ⟨?_, ?_, ?_⟩
  · intro v r bytes front hencode hlen hfront hne
    obtain ⟨sent, htakes⟩ := Request.exists_takes_of_encode hencode hlen
    obtain ⟨e, he⟩ := htakes.refused_of_front (Request.persists_read v) hfront hne
    exact ⟨e.message, by rw [Request.decode, he]; rfl⟩
  · intro r bytes front hencode hlen hfront hne
    obtain ⟨sent, htakes⟩ := Returned.exists_takes_of_encode hencode hlen
    obtain ⟨e, he⟩ := htakes.refused_of_front Returned.persists_read hfront hne
    exact ⟨e.message, by rw [Returned.decode, he]; rfl⟩
  · intro f front hlen hfront hne
    obtain ⟨e, he⟩ := (f.recovers_fault hlen).refused_of_front Fault.persists_read hfront hne
    exact ⟨e.message, by rw [Fault.decode, he]; rfl⟩

/-- A request that ends behind the first of its two arguments, a list that ends behind its first
item, and a fault that ends before it says whether there are details. -/
theorem refused_of_truncated_between_elements :
    let g : Graph := ⟨#[⟨"A", [("b", .object 2)]⟩, ⟨"C", []⟩, ⟨"B", [("a", .object 0)]⟩]⟩
    let r : Request :=
      { key := ⟨"Clock", "1", "zone"⟩
        context := { identity := [⟨"user", "alice"⟩], traced := true }
        arguments := ⟨g, [("x", .object 2), ("y", .list [.object 0])]⟩ }
    let first : List UInt8 := Request.putKey r.key ++ (r.context.encode ⟨3⟩ ++
      [2, 1, 120, 11, 1, 66, 1, 1, 97, 11, 1, 65, 1, 1, 98, 12, 0])
    let items : Returned := ⟨.empty, .list [.int 1, .int 2]⟩
    let f : Fault := { code := .application, message := "late", detail := some "by a day" }
    let front : List UInt8 := putText f.code.name ++ putText f.message
    (r.encode ⟨3⟩ = .ok (first ++ [1, 121, 8, 1, 12, 1]) ∧
        ∃ text, Request.decode ⟨3⟩ first = .error (.marshalling text)) ∧
      (items.encode = .ok [8, 2, 3, 2, 3, 4] ∧
        ∃ text, Returned.decode {} {} none [8, 2, 3, 2] = .error (.marshalling text)) ∧
      f.encode = front ++ putOptional putText f.detail ∧
        ∃ text, Fault.decode front = .error (.marshalling text) := by
  intro g r first items f front
  obtain ⟨hrequest, hreturned, hfault⟩ := refused_of_truncated {} {} none
  have hr : r.encode ⟨3⟩ = .ok (first ++ [1, 121, 8, 1, 12, 1]) := by decide +kernel
  have hitems : items.encode = .ok [8, 2, 3, 2, 3, 4] := by decide +kernel
  have hf : f.encode = front ++ putOptional putText f.detail := (List.append_assoc ..).symm
  refine ⟨⟨hr, hrequest ⟨3⟩ r _ first hr (by decide +kernel) (List.prefix_append _ _) (by simp)⟩,
    ⟨hitems, hreturned items _ [8, 2, 3, 2] hitems (by decide) (by decide) (by decide)⟩, hf, ?_⟩
  exact hfault f front (by decide +kernel) (hf ▸ List.prefix_append _ _) (by decide +kernel)

end RemoteCall
