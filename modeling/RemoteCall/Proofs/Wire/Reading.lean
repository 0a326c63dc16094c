/-
# What a reader takes

`Reader.Takes r bytes a` says that the reader `r` takes exactly `bytes` off the front of any
payload that starts with them, whatever follows, and gives `a`.  Each element that is written has
such a law, and sequences of readers take sequences of bytes.  The one element without a law of its
own is a count: it is compared with the bytes that follow it, so its law speaks of the elements
that are counted as well.  `Reader.Recovers r bytes a` is the same under the condition that a word
can count the bytes; it is the law of the elements that hold texts, options and lists.
-/
import RemoteCall.Proofs.Wire.Varint
import RemoteCall.Wire.Graph

namespace RemoteCall.Wire

lemma ofBigEndian_bits (bits : UInt64) :
    UInt64.ofNat (ofBigEndian (bigEndian 8 bits.toNat)) = bits := by
  have h : bits.toNat < Nat.pow 256 8 := bits.toNat_lt
  rw [ofBigEndian_bigEndian, Nat.mod_eq_of_lt h, UInt64.ofNat_toNat]

namespace Reader

variable {α β : Type}

/-- The reader takes exactly some bytes, whatever follows them, and gives an element. -/
def Takes (r : Reader α) (bytes : List UInt8) (a : α) : Prop :=
  ∀ (offset : Nat) (rest : List UInt8) (trusting : Bool),
    StateT.run r ⟨offset, bytes ++ rest, trusting⟩ =
      .ok (a, ⟨offset + bytes.length, rest, trusting⟩)

lemma takes_pure (a : α) : Takes (pure a) [] a := by
  intro offset rest trusting
  rfl

lemma Takes.bind {r : Reader α} {k : α → Reader β} {front back : List UInt8} {a : α} {b : β}
    (hr : Takes r front a) (hk : Takes (k a) back b) : Takes (r >>= k) (front ++ back) b := by
  intro offset rest trusting
  rw [StateT.run_bind, List.append_assoc, hr offset (back ++ rest) trusting]
  have h := hk (offset + front.length) rest trusting
  rw [Nat.add_assoc, ← List.length_append] at h
  exact h

/-- A step that takes nothing may follow. -/
lemma Takes.bind_nil {r : Reader α} {k : α → Reader β} {bytes : List UInt8} {a : α} {b : β}
    (hr : Takes r bytes a) (hk : Takes (k a) [] b) : Takes (r >>= k) bytes b := by
  have h := hr.bind hk
  rwa [List.append_nil] at h

lemma Takes.map {r : Reader α} {bytes : List UInt8} {a : α} (hr : Takes r bytes a) (f : α → β) :
    Takes (r >>= fun x => pure (f x)) bytes (f a) :=
  hr.bind_nil (takes_pure (f a))

/-! ## Elements -/

lemma takes_byte (b : UInt8) : Takes byte [b] b := by
  intro offset rest trusting
  rfl

lemma takes_flag (b : Bool) : Takes flag (putFlag b) b := by
  intro offset rest trusting
  cases b <;> rfl

lemma takes_take (bytes : List UInt8) : Takes (take bytes.length) bytes bytes := by
  intro offset rest trusting
  have h : splitAt? bytes.length (bytes ++ rest) = some (bytes, rest) := splitAt?_append rfl
  simp [StateT.run, take, h]

lemma takes_numeral {v : UInt64} {bytes : List UInt8} (h : Varint.Numeral v bytes) :
    Takes number bytes v := by
  intro offset rest trusting
  simp [StateT.run, number, h.decode_append]

lemma takes_number (v : UInt64) : Takes number (Varint.encode v) v :=
  takes_numeral (Varint.numeral_encode v)

/-- A count is taken, however it is spelled, when at least that many bytes follow it; the elements
take these bytes. -/
lemma takes_numeral_bind {k : Nat → Reader β} {v : UInt64} {front body : List UInt8} {b : β}
    (hv : Varint.Numeral v front) (hlen : v.toNat ≤ body.length) (hk : Takes (k v.toNat) body b) :
    Takes (count >>= k) (front ++ body) b := by
  intro offset rest trusting
  have hcount : StateT.run count ⟨offset, front ++ (body ++ rest), trusting⟩ =
      .ok (v.toNat, ⟨offset + front.length, body ++ rest, trusting⟩) := by
    have hle : v.toNat ≤ (body ++ rest).length := by
      rw [List.length_append]
      omega
    -- the count is compared with the bytes that follow, those behind the elements included
    rw [count, StateT.run_bind, takes_numeral hv offset (body ++ rest) trusting]
    show StateT.run (if (trusting || decide (v.toNat ≤ (body ++ rest).length)) = true
      then pure v.toNat else _) _ = _
    rw [decide_eq_true hle, Bool.or_true, if_pos rfl]
    rfl
  rw [StateT.run_bind, List.append_assoc, hcount]
  have h := hk (offset + front.length) rest trusting
  rw [Nat.add_assoc, ← List.length_append] at h
  exact h

lemma takes_count_bind {k : Nat → Reader β} {n : Nat} {body : List UInt8} {b : β}
    (hn : n < 2 ^ 64) (hlen : n ≤ body.length) (hk : Takes (k n) body b) :
    Takes (count >>= k) (putCount n ++ body) b := by
  have hword : (UInt64.ofNat n).toNat = n := UInt64.toNat_ofNat_of_lt' hn
  rw [← hword] at hlen hk
  exact takes_numeral_bind (Varint.numeral_encode (UInt64.ofNat n)) hlen hk

lemma takes_bytes {b : List UInt8} (hb : b.length < 2 ^ 64) : Takes bytes (putBytes b) b :=
  takes_count_bind hb (Nat.le_refl _) (takes_take b)

lemma takes_text {s : String} (hs : (Text.toBytes s).length < 2 ^ 64) :
    Takes text (putText s) s := by
  refine (takes_bytes hs).bind_nil ?_
  rw [Text.ofBytes?_toBytes]
  exact takes_pure s

/-! ## Elements made of other elements

Lengths and counts on the wire are words, so an element is only given back if its bytes can be
counted.  `Recovers` carries this condition from the whole to its parts. -/

/-- The reader takes exactly some bytes and gives an element, if there are fewer than `2 ^ 64` of
them. -/
def Recovers (r : Reader α) (bytes : List UInt8) (a : α) : Prop :=
  bytes.length < 2 ^ 64 → Takes r bytes a

lemma Recovers.bind {r : Reader α} {k : α → Reader β} {front back : List UInt8} {a : α} {b : β}
    (hr : Recovers r front a) (hk : Recovers (k a) back b) :
    Recovers (r >>= k) (front ++ back) b := by
  intro hlen
  rw [List.length_append] at hlen
  exact (hr (by omega)).bind (hk (by omega))

lemma Recovers.map {r : Reader α} {bytes : List UInt8} {a : α} (hr : Recovers r bytes a)
    (f : α → β) : Recovers (r >>= fun x => pure (f x)) bytes (f a) :=
  fun hlen => (hr hlen).map f

lemma recovers_text (s : String) : Recovers text (putText s) s := by
  intro hlen
  rw [putText, putBytes, List.length_append] at hlen
  exact takes_text (by omega)

lemma recovers_optional {element : Reader β} {put : α → List UInt8} {u : α → β}
    (h : ∀ a, Recovers element (put a) (u a)) (o : Option α) :
    Recovers (optional element) (putOptional put o) (o.map u) := by
  cases o with
  | none => exact fun _ => (takes_flag false).bind_nil (takes_pure none)
  | some a => exact Recovers.bind (fun _ => takes_flag true) ((h a).map some)

variable {element : Reader α} {put : α → List UInt8}

lemma recovers_optional_self (h : ∀ a, Recovers element (put a) a) (o : Option α) :
    Recovers (optional element) (putOptional put o) o := by
  have h := recovers_optional (u := id) h o
  rwa [Option.map_id, id] at h

lemma recovers_times (h : ∀ a, Recovers element (put a) a) (l : List α) :
    Recovers (times element l.length) (l.flatMap put) l := by
  induction l with
  | nil => exact fun _ => takes_pure []
  | cons a rest ih =>
    rw [List.flatMap_cons]
    exact (h a).bind (ih.map (fun as => a :: as))

/-- Elements of at least one byte each are taken with their number in front of them. -/
lemma recovers_counted (hpos : ∀ a, 0 < (put a).length) (h : ∀ a, Recovers element (put a) a)
    (l : List α) : Recovers (counted element) (putCounted put l) l := by
  have hle : l.length ≤ (l.flatMap put).length := by
    induction l with
    | nil => exact Nat.le_refl 0
    | cons a rest ih =>
      have ha := hpos a
      rw [List.flatMap_cons, List.length_append, List.length_cons]
      omega
  intro hlen
  rw [putCounted, List.length_append] at hlen
  exact takes_count_bind (by omega) hle (recovers_times h l (by omega))

lemma length_putText_pos (s : String) : 0 < (putText s).length := by
  have h := Varint.length_encode_pos (UInt64.ofNat (Text.toBytes s).length)
  rw [putText, putBytes, List.length_append, putCount]
  omega

end Reader

/-! ## Readers that add to a graph -/

namespace GraphReader

variable {α β : Type}

/-- The reader takes exactly some bytes, whatever follows them, and gives an element and a graph
when it starts with another graph. -/
def Takes (r : GraphReader α) (g : Graph) (bytes : List UInt8) (a : α) (g' : Graph) : Prop :=
  Reader.Takes (StateT.run r g) bytes (a, g')

lemma takes_pure (g : Graph) (a : α) : Takes (pure a) g [] a g := Reader.takes_pure (a, g)

lemma Takes.bind {r : GraphReader α} {k : α → GraphReader β} {g g' g'' : Graph}
    {front back : List UInt8} {a : α} {b : β} (hr : Takes r g front a g')
    (hk : Takes (k a) g' back b g'') : Takes (r >>= k) g (front ++ back) b g'' := by
  rw [Takes, StateT.run_bind]
  exact Reader.Takes.bind hr hk

lemma Takes.bind_nil {r : GraphReader α} {k : α → GraphReader β} {g g' g'' : Graph}
    {bytes : List UInt8} {a : α} {b : β} (hr : Takes r g bytes a g')
    (hk : Takes (k a) g' [] b g'') : Takes (r >>= k) g bytes b g'' := by
  have h := hr.bind hk
  rwa [List.append_nil] at h

lemma Takes.map {r : GraphReader α} {g g' : Graph} {bytes : List UInt8} {a : α}
    (hr : Takes r g bytes a g') (f : α → β) :
    Takes (r >>= fun x => pure (f x)) g bytes (f a) g' :=
  hr.bind_nil (takes_pure g' (f a))

lemma run_lift (r : Reader α) (g : Graph) :
    StateT.run (liftM r : GraphReader α) g = r >>= fun a => pure (a, g) := rfl

lemma takes_lift {r : Reader α} {bytes : List UInt8} {a : α} (hr : Reader.Takes r bytes a)
    (g : Graph) : Takes (liftM r) g bytes a g := by
  rw [Takes, run_lift]
  exact hr.map fun x => (x, g)

lemma takes_numeral_bind {k : Nat → GraphReader β} {g g' : Graph} {v : UInt64}
    {front body : List UInt8} {b : β} (hv : Varint.Numeral v front) (hlen : v.toNat ≤ body.length)
    (hk : Takes (k v.toNat) g body b g') :
    Takes (liftM Reader.count >>= k) g (front ++ body) b g' := by
  rw [Takes, StateT.run_bind, run_lift, bind_assoc]
  refine Reader.takes_numeral_bind hv hlen ?_
  rw [pure_bind]
  exact hk

lemma takes_count_bind {k : Nat → GraphReader β} {g g' : Graph} {n : Nat} {body : List UInt8}
    {b : β} (hn : n < 2 ^ 64) (hlen : n ≤ body.length) (hk : Takes (k n) g body b g') :
    Takes (liftM Reader.count >>= k) g (putCount n ++ body) b g' := by
  have hword : (UInt64.ofNat n).toNat = n := UInt64.toNat_ofNat_of_lt' hn
  rw [← hword] at hlen hk
  exact takes_numeral_bind (Varint.numeral_encode (UInt64.ofNat n)) hlen hk

/-! ## Values and objects -/

variable {g g' : Graph} {bytes : List UInt8}

/-- A value is taken as its tag and what follows the tag. -/
lemma takes_value {levels : Nat} {t : ValueTag} {v : Value}
    (h : Takes (content (value levels) t) g bytes v g') :
    Takes (value (levels + 1)) g (t.byte :: bytes) v g' := by
  show Takes (value (levels + 1)) g ([t.byte] ++ bytes) v g'
  refine Takes.bind (takes_lift (Reader.takes_byte t.byte) g) ?_
  rw [ValueTag.ofByte?_byte]
  exact h

/-- The number of an object of the graph is taken as a reference to it. -/
lemma takes_reference_numeral {w : UInt64} (hw : Varint.Numeral w bytes) (hn : w.toNat < g.size) :
    Takes reference g bytes (.object w.toNat) g := by
  refine (takes_lift (Reader.takes_numeral hw) g).bind_nil ?_
  rw [Takes, StateT.run_bind, StateT.run_get, pure_bind, if_pos hn]
  exact takes_pure g (Value.object w.toNat)

lemma takes_reference {n : Nat} (hn : n < g.size) (hword : n < 2 ^ 64) :
    Takes reference g (putCount n) (.object n) g := by
  have hnat : (UInt64.ofNat n).toNat = n := UInt64.toNat_ofNat_of_lt' hword
  have h := takes_reference_numeral (Varint.numeral_encode (UInt64.ofNat n)) (hnat.symm ▸ hn)
  rwa [hnat] at h

/-- An object is taken as the name of its type and its fields; the fields are read over a graph that
holds the object already. -/
lemma takes_object {value : GraphReader Value} {typeName : String} {name : List UInt8}
    {fields : Named Value} (hname : Reader.Takes Reader.text name typeName)
    (hfields : Takes (counted (named value)) (g.insert { typeName }).1 bytes fields g') :
    Takes (object value) g (name ++ bytes) (.object g.size)
      (g'.modify g.size fun o => { o with fields := fields }) := by
  refine Takes.bind (takes_lift hname g) ?_
  rw [Takes, StateT.run_bind, StateT.run_get, pure_bind]
  show Reader.Takes (StateT.run (set (g.insert { typeName }).1 >>= fun _ => _) g) _ _
  rw [StateT.run_bind, StateT.run_set, pure_bind]
  -- objects read meanwhile stand behind this one, so it is found again under its number
  refine Takes.bind_nil hfields ?_
  rw [Takes, StateT.run_bind, StateT.run_modify, pure_bind]
  exact takes_pure _ _

end GraphReader

end RemoteCall.Wire
