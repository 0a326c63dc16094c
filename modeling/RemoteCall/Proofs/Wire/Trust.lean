/-
# Counts that are believed

A count is compared with the bytes that are left before its elements are read, and refused if there
are fewer.  A reader that believes every count would go on and read elements until the bytes run
out.  Each element takes at least one byte, so it would be refused there: the comparison changes
when a payload is refused and why, but neither which payloads are read nor what is read from them.
-/
import RemoteCall.Message
import RemoteCall.Proofs.Wire.Grammar

namespace RemoteCall

namespace Wire

/-- The same place in a payload, for a reader that believes every count: it takes the number as it
stands (`Reader.run_count_trust`). -/
def Cursor.trust (c : Cursor) : Cursor := { c with trusting := true }

/-- What a reader makes of a payload, and what it makes of it when it believes every count. -/
inductive Agree {α : Type} :
    Except Malformed (α × Cursor) → Except Malformed (α × Cursor) → Prop
  /-- It gives the same element and stops at the same place. -/
  | taken (a : α) (c : Cursor) : Agree (.ok (a, c)) (.ok (a, c.trust))
  /-- It refuses the payload, perhaps later and for another cause. -/
  | refused (e e' : Malformed) : Agree (.error e) (.error e')

namespace Reader

variable {α β : Type} {r : Reader α}

/-- Wherever the reader starts, it does not matter whether it believes counts. -/
def Agrees (r : Reader α) : Prop := ∀ c, Agree (StateT.run r c) (StateT.run r c.trust)

/-- From a place in a payload, the reader gives an element and takes so many bytes. -/
def Gives (r : Reader α) (c : Cursor) (a : α) (n : Nat) : Prop :=
  ∃ c', StateT.run r c = .ok (a, c') ∧ c'.offset = c.offset + n

lemma Agrees.gives_iff (hr : Agrees r) (c : Cursor) (a : α) (n : Nat) :
    r.Gives c a n ↔ r.Gives c.trust a n := by
  have h := hr c
  simp only [Gives]
  generalize StateT.run r c = x at h ⊢
  generalize StateT.run r c.trust = y at h ⊢
  cases h with
  | taken a' c' => simp [Cursor.trust]
  | refused e e' => simp

/-- A payload is read with the comparison exactly if it is read without. -/
lemma Agrees.run_eq_ok (hr : Agrees r) {payload : List UInt8} {a : α} :
    r.run payload = .ok a ↔ ∃ n, r.Gives (Cursor.start payload).trust a n := by
  simp only [← hr.gives_iff]
  simp only [Gives, Reader.run, bind_eq_ok]
  constructor
  · rintro ⟨⟨b, c⟩, hrun, hb⟩
    cases hb
    exact ⟨c.offset, c, hrun, (Nat.zero_add _).symm⟩
  · rintro ⟨_, c, hrun, -⟩
    exact ⟨(a, c), hrun, rfl⟩

/-- The reader takes at least `n` bytes if it gives an element. -/
def Consumes (n : Nat) (r : Reader α) : Prop := Yields r fun bytes _ => n ≤ bytes.length

lemma agrees_pure (a : α) : Agrees (pure a) := fun c => .taken a c

lemma agrees_throw (e : Malformed) : Agrees (throw e : Reader α) := fun _ => .refused e e

lemma Agrees.bind {k : α → Reader β} (hr : Agrees r) (hk : ∀ a, Agrees (k a)) :
    Agrees (r >>= k) := by
  intro c
  have h := hr c
  rw [StateT.run_bind, StateT.run_bind]
  generalize StateT.run r c = x at h ⊢
  generalize StateT.run r c.trust = y at h ⊢
  cases h with
  | taken a c' => exact hk a c'
  | refused e e' => exact .refused e e'

/-! ## Elements -/

lemma agrees_byte : Agrees byte := by
  rintro ⟨offset, _ | ⟨b, rest⟩, trusting⟩
  · exact .refused _ _
  · exact .taken b ⟨offset + 1, rest, trusting⟩

lemma agrees_take (n : Nat) : Agrees (take n) := by
  rintro ⟨offset, rest, trusting⟩
  rcases h : splitAt? n rest with _ | ⟨front, back⟩ <;>
    simp only [StateT.run, take, Cursor.trust, h]
  · exact .refused _ _
  · exact .taken front ⟨offset + n, back, trusting⟩

lemma agrees_number : Agrees number := by
  rintro ⟨offset, rest, trusting⟩
  rcases h : Varint.decode rest with e | ⟨w, used⟩ <;>
    simp only [StateT.run, number, Cursor.trust, h]
  · exact .refused e e
  · exact .taken w ⟨offset + used, rest.drop used, trusting⟩

lemma agrees_flag : Agrees flag := by
  refine agrees_byte.bind fun b => ?_
  split
  · exact agrees_pure false
  · split
    · exact agrees_pure true
    · exact agrees_throw _

/-- A count that is believed is the bare number. -/
lemma run_count_trust (c : Cursor) :
    StateT.run count c.trust =
      (StateT.run number c.trust).map fun p => (p.1.toNat, p.2) := by
  rcases h : Varint.decode c.rest with e | ⟨w, used⟩ <;>
    simp only [count, StateT.run, bind, StateT.bind, number, Cursor.trust, h]
  · rfl
  · rfl

/-- The comparison that a count is put to. -/
lemma run_count_bind (k : Nat → Reader β) (c : Cursor) :
    StateT.run (count >>= k) c = StateT.run number c >>= fun p =>
      if (p.2.trusting || decide (p.1.toNat ≤ p.2.rest.length)) = true then
        StateT.run (k p.1.toNat) p.2
      else .error (.lengthBeyond p.1.toNat p.2.rest.length) := by
  rw [count, bind_assoc, StateT.run_bind]
  refine bind_congr fun p => ?_
  rw [bind_assoc, StateT.run_bind, StateT.run_get, pure_bind]
  split <;> rfl

/-- **A count of elements that take a byte each** may be believed: if more elements are counted than
bytes are left, the elements are refused. -/
lemma agrees_count_bind {k : Nat → Reader β} (hk : ∀ n, Agrees (k n))
    (hbytes : ∀ n, Consumes n (k n)) : Agrees (count >>= k) := by
  intro c
  have h := agrees_number c
  rw [run_count_bind, StateT.run_bind, run_count_trust]
  generalize StateT.run number c = x at h ⊢
  generalize StateT.run number c.trust = y at h ⊢
  cases h with
  | refused e e' => exact .refused e e'
  | taken w c' =>
    show Agree (if (c'.trusting || decide (w.toNat ≤ c'.rest.length)) = true then
      StateT.run (k w.toNat) c' else _) (StateT.run (k w.toNat) c'.trust)
    split
    · exact hk w.toNat c'
    · next hbeyond =>
      rw [Bool.or_eq_true, decide_eq_true_iff, not_or] at hbeyond
      rcases hrun : StateT.run (k w.toNat) c'.trust with e | ⟨b, c''⟩
      · exact .refused _ e
      · exfalso
        obtain ⟨bytes, hrest, -, hlen⟩ := hbytes w.toNat _ b c'' hrun
        have hle := congrArg List.length (show c'.rest = bytes ++ c''.rest from hrest)
        rw [List.length_append] at hle
        omega

/-! ### How many bytes elements take -/

lemma consumes_zero {P : List UInt8 → α → Prop} (hr : Yields r P) : Consumes 0 r :=
  hr.mono fun _ _ _ => Nat.zero_le _

lemma Consumes.bind {n m : Nat} {k : α → Reader β} (hr : Consumes n r)
    (hk : ∀ a, Consumes m (k a)) : Consumes (n + m) (r >>= k) := by
  refine Yields.bind hr fun front a hfront => (hk a).mono fun back _ hback => ?_
  rw [List.length_append]
  exact Nat.add_le_add hfront hback

lemma Consumes.map {n : Nat} (hr : Consumes n r) (f : α → β) :
    Consumes n (r >>= fun a => pure (f a)) :=
  hr.bind fun _ => yields_pure (P := fun bytes _ => 0 ≤ bytes.length) (Nat.le_refl 0)

lemma consumes_take (n : Nat) : Consumes n (take n) :=
  (yields_take n).mono fun _ _ h => Nat.le_of_eq h.2.symm

lemma consumes_text : Consumes 1 text := by
  refine yields_text.mono ?_
  rintro _ s ⟨front, ⟨w, -, hw⟩, rfl⟩
  rw [List.length_append]
  exact Nat.le_add_right_of_le hw.length_pos

lemma consumes_times (hr : Consumes 1 r) (n : Nat) : Consumes n (times r n) := by
  induction n with
  | zero => exact yields_pure (P := fun bytes _ => 0 ≤ bytes.length) (Nat.le_refl 0)
  | succ n ih =>
    have htimes : Consumes (1 + n) (times r (n + 1)) :=
      hr.bind fun a => ih.map fun rest => a :: rest
    rwa [Nat.add_comm] at htimes

/-! ### Elements with counts in them -/

lemma agrees_bytes : Agrees bytes := agrees_count_bind agrees_take consumes_take

lemma agrees_text : Agrees text := by
  refine agrees_bytes.bind fun raw => ?_
  split
  · exact agrees_pure _
  · exact agrees_throw _

lemma agrees_optional (hr : Agrees r) : Agrees (optional r) := by
  refine agrees_flag.bind fun b => ?_
  cases b
  · exact agrees_pure none
  · exact hr.bind fun a => agrees_pure (some a)

lemma agrees_times (hr : Agrees r) (n : Nat) : Agrees (times r n) := by
  induction n with
  | zero => exact agrees_pure []
  | succ n ih => exact hr.bind fun a => ih.bind fun rest => agrees_pure (a :: rest)

lemma agrees_counted (hr : Agrees r) (hpos : Consumes 1 r) : Agrees (counted r) :=
  agrees_count_bind (agrees_times hr) (consumes_times hpos)

end Reader

/-! ## Values -/

namespace GraphReader

variable {α β : Type} {read : GraphReader α} {F : Form α}

/-- Whatever the graph, it does not matter whether the reader believes counts. -/
def Agrees (read : GraphReader α) : Prop := ∀ g, Reader.Agrees (StateT.run read g)

lemma agrees_pure (a : α) : Agrees (pure a) := fun g => Reader.agrees_pure (a, g)

lemma Agrees.bind {k : α → GraphReader β} (hr : Agrees read) (hk : ∀ a, Agrees (k a)) :
    Agrees (read >>= k) := by
  intro g
  rw [StateT.run_bind]
  exact (hr g).bind fun p => hk p.1 p.2

lemma Agrees.map (hr : Agrees read) (f : α → β) : Agrees (read >>= fun a => pure (f a)) :=
  hr.bind fun a => agrees_pure (f a)

lemma agrees_lift {r : Reader α} (hr : Reader.Agrees r) : Agrees (liftM r) := by
  intro g
  rw [run_lift]
  exact hr.bind fun a => Reader.agrees_pure (a, g)

lemma agrees_times (hr : Agrees read) (n : Nat) : Agrees (times read n) := by
  induction n with
  | zero => exact agrees_pure []
  | succ n ih => exact hr.bind fun a => ih.map fun rest => a :: rest

/-- Elements of a form take a byte each, so their number may be believed. -/
lemma agrees_counted (hr : Agrees read) (hyields : ∀ g, Yields read g (F g))
    (htaken : F.TakenBy read) : Agrees (counted read) := by
  intro g
  rw [counted, StateT.run_bind, run_lift, bind_assoc]
  refine Reader.agrees_count_bind (fun n => ?_) fun n => ?_ <;> rw [pure_bind]
  · exact agrees_times hr n g
  · refine Reader.Yields.mono (yields_times hyields n g) ?_
    rintro bytes ⟨l, g'⟩ ⟨rfl, hl⟩
    exact (hl.takes htaken).1

section Parts

variable {read : GraphReader Value} {F : Form Value}

lemma agrees_entry (hr : Agrees read) : Agrees (entry read) := by
  refine hr.bind fun k => (agrees_lift Reader.agrees_flag).bind fun b => ?_
  cases b
  · exact agrees_pure (k, none)
  · exact hr.map fun v => (k, some v)

lemma agrees_named (hr : Agrees read) : Agrees (named read) :=
  (agrees_lift Reader.agrees_text).bind fun name => hr.map fun v => (name, v)

variable (hr : Agrees read) (hyields : ∀ g, Yields read g (F g)) (htaken : F.TakenBy read)
include hr hyields htaken

lemma agrees_object : Agrees (object read) := by
  have hfields : Agrees (counted (named read)) :=
    agrees_counted (agrees_named hr) (yields_named hyields) (Form.Field.takenBy htaken)
  refine (agrees_lift Reader.agrees_text).bind fun typeName => ?_
  intro g
  rw [StateT.run_bind, StateT.run_get, pure_bind]
  show Reader.Agrees (StateT.run (set (g.insert { typeName }).1 >>= fun _ => _) g)
  rw [StateT.run_bind, StateT.run_set, pure_bind]
  refine hfields.bind (fun fields => ?_) _
  intro g'
  rw [StateT.run_bind, StateT.run_modify, pure_bind]
  exact Reader.agrees_pure _

omit hr hyields htaken in
lemma agrees_reference : Agrees reference := by
  refine (agrees_lift Reader.agrees_number).bind fun w => ?_
  intro g
  rw [StateT.run_bind, StateT.run_get, pure_bind]
  split
  · exact Reader.agrees_pure _
  · exact Reader.agrees_throw _

lemma agrees_content (t : ValueTag) : Agrees (content read t) := by
  cases t with
  | null => exact agrees_pure _
  | false => exact agrees_pure _
  | true => exact agrees_pure _
  | int => exact (agrees_lift Reader.agrees_number).map fun w => Value.int (Varint.unfold w)
  | float =>
    exact (agrees_lift (Reader.agrees_take 8)).map fun raw =>
      Value.float (UInt64.ofNat (ofBigEndian raw))
  | str => exact (agrees_lift Reader.agrees_text).map Value.str
  | bytes => exact (agrees_lift Reader.agrees_bytes).map Value.bytes
  | enum => exact (agrees_lift Reader.agrees_text).map Value.enum
  | list => exact (agrees_counted hr hyields htaken).map Value.list
  | set => exact (agrees_counted hr hyields htaken).map Value.set
  | map =>
    exact (agrees_counted (agrees_entry hr) (yields_entry hyields)
      (Form.Entry.takenBy htaken)).map Value.map
  | object => exact agrees_object hr hyields htaken
  | reference => exact agrees_reference

end Parts

/-- **Counts in values may be believed.** -/
lemma agrees_value (levels : Nat) : Agrees (value levels) := by
  induction levels with
  | zero => exact fun _ => Reader.agrees_throw _
  | succ levels ih =>
    refine (agrees_lift Reader.agrees_byte).bind fun b => ?_
    split
    · exact fun _ => Reader.agrees_throw _
    · exact agrees_content ih (yields_value levels) (Form.value_takenBy levels) _

end GraphReader

end Wire

open Wire Wire.Reader

/-! ## Contexts, requests and faults -/

namespace Context

lemma agrees_since {α : Type} {introduced v : ProtocolVersion} {absent : α} {element : Reader α}
    (h : Agrees element) : Agrees (since introduced v absent element) := by
  rw [since]
  split
  · exact h
  · exact agrees_pure absent

lemma agrees_pair : Agrees readPair :=
  agrees_text.bind fun first => agrees_text.bind fun second => agrees_pure (first, second)

lemma consumes_pair : Consumes 1 readPair :=
  consumes_text.bind (m := 0) fun first =>
    consumes_zero (consumes_text.map fun second => (first, second))

lemma agrees_location (v : ProtocolVersion) : Agrees (readLocation v) := by
  have hcountry : Agrees (optional text) := agrees_optional agrees_text
  exact agrees_text.bind fun _ => (agrees_counted agrees_text consumes_text).bind fun _ =>
    hcountry.bind fun _ => (agrees_since hcountry).bind fun _ => agrees_pure _

lemma agrees_timestamp : Agrees readTimestamp := by
  refine agrees_number.bind fun w => ?_
  dsimp only
  split
  · exact agrees_pure _
  · exact agrees_throw _

lemma agrees_uuid : Agrees readUuid := (agrees_take 16).bind fun _ => agrees_pure _

lemma agrees_context (v : ProtocolVersion) : Agrees (read v) := by
  have htoken : Agrees readToken := agrees_pair.bind fun _ => agrees_pure _
  have hchain : Agrees (since .requestChain v none (optional readUuid)) :=
    agrees_since (agrees_optional agrees_uuid)
  have hadditional : Agrees (since .additionalContext v [] (counted readPair)) :=
    agrees_since (agrees_counted agrees_pair consumes_pair)
  exact (agrees_counted htoken (consumes_pair.map _)).bind fun _ =>
    (agrees_optional (agrees_location v)).bind fun _ => agrees_timestamp.bind fun _ =>
    agrees_flag.bind fun _ => agrees_uuid.bind fun _ => hchain.bind fun _ =>
    hchain.bind fun _ => hadditional.bind fun _ => agrees_pure _

end Context

lemma Request.agrees_read (v : ProtocolVersion) : Agrees (Request.read v) := by
  have hkey : Agrees readKey :=
    agrees_text.bind fun _ => agrees_text.bind fun _ => agrees_text.bind fun _ => agrees_pure _
  have hvalues :
      GraphReader.Agrees (GraphReader.counted (GraphReader.named GraphReader.outermost)) :=
    GraphReader.agrees_counted (GraphReader.agrees_named (GraphReader.agrees_value _))
      (GraphReader.yields_named (GraphReader.yields_value _))
      (Form.Field.takenBy (Form.value_takenBy _))
  have harguments : Agrees readArguments := (hvalues .empty).bind fun _ => agrees_pure _
  exact hkey.bind fun _ => (Context.agrees_context v).bind fun _ => harguments.bind fun _ =>
    agrees_pure _

lemma Fault.agrees_read : Agrees Fault.read :=
  agrees_text.bind fun _ => agrees_text.bind fun _ =>
    (agrees_optional agrees_text).bind fun _ => agrees_pure _

/-- **A count that is compared with the bytes that are left reads as one that is believed.**  From
any place in any payload, the readers of requests, of values over a graph, of faults and of contexts
give an element and take a number of bytes exactly if they do so when they believe every count.  So
requests and faults are decoded exactly from the payloads, and to the same result, from which they
would be decoded without the comparison. -/
theorem read_alike_believing_counts (v : ProtocolVersion) :
    (∀ c r n, (Request.read v).Gives c r n ↔ (Request.read v).Gives c.trust r n) ∧
    (∀ g c p n, Gives (StateT.run GraphReader.outermost g) c p n ↔
      Gives (StateT.run GraphReader.outermost g) c.trust p n) ∧
    (∀ c f n, Fault.read.Gives c f n ↔ Fault.read.Gives c.trust f n) ∧
    (∀ c x n, (Context.read v).Gives c x n ↔ (Context.read v).Gives c.trust x n) ∧
    (∀ payload r, Request.decode v payload = .ok r ↔
      ∃ n, (Request.read v).Gives (Cursor.start payload).trust r n) ∧
    ∀ payload f, Fault.decode payload = .ok f ↔
      ∃ n, Fault.read.Gives (Cursor.start payload).trust f n := by
  have hrequest := Request.agrees_read v
  have hfault := Fault.agrees_read
  refine ⟨hrequest.gives_iff, fun g => (GraphReader.agrees_value _ g).gives_iff, hfault.gives_iff,
    (Context.agrees_context v).gives_iff, fun payload r => ?_, fun payload f => ?_⟩
  · rw [← hrequest.run_eq_ok, Request.decode]
    split
    · next r' hr => rw [hr, Except.ok.injEq, Except.ok.injEq]
    · next e he => simp [he]
  · rw [← hfault.run_eq_ok, Fault.decode]
    split
    · next f' hf => rw [hf, Except.ok.injEq, Except.ok.injEq]
    · next e he => simp [he]

/-- A list that counts two elements and has both is read where its count is believed, and to the
same place; one that counts five and goes on for two bytes is not. -/
theorem read_alike_believing_counts_lists :
    Gives (StateT.run GraphReader.outermost .empty) (Cursor.start [8, 2, 0, 0]).trust
        (.list [.null, .null], .empty) 4 ∧
      ¬∃ p n, Gives (StateT.run GraphReader.outermost .empty)
        (Cursor.start [8, 5, 0, 0]).trust p n := by
  have hvalues := (read_alike_believing_counts .newest).2.1 .empty
  constructor
  · exact (hvalues _ _ _).mp ⟨⟨4, [], false⟩, rfl, rfl⟩
  · rintro ⟨p, n, hp⟩
    obtain ⟨c, hc, -⟩ := (hvalues _ p n).mpr hp
    have hrefused : StateT.run (StateT.run GraphReader.outermost .empty)
        (Cursor.start [8, 5, 0, 0]) = .error (.lengthBeyond 5 2) := rfl
    rw [hrefused] at hc
    cases hc

/-- Of a list that counts five elements and goes on for two bytes, the first byte behind the count
is not looked at, unless the count is believed. -/
example :
    (GraphReader.outermost.run .empty).run (Cursor.start [8, 5, 0, 0]) =
        .error (.lengthBeyond 5 2) ∧
      (GraphReader.outermost.run .empty).run (Cursor.start [8, 5, 0, 0]).trust =
        .error (.truncated 1 4) :=
  ⟨rfl, rfl⟩

end RemoteCall
