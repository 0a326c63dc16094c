/-
# What a reader says when it refuses a payload

The text for a refused payload holds numbers from the reader's own state and from the bytes, and all
of them fit into words; so it has a length that does not depend on the payload.  A payload that is
not refused gives texts no longer than itself: the constants in the values that were read have at
most as many bytes as the payload.
-/
import RemoteCall.Proofs.Levels
import RemoteCall.Proofs.Steps
import RemoteCall.Proofs.Text
import RemoteCall.Proofs.Wire.Canonical
import RemoteCall.Wire.Graph

namespace RemoteCall

/-! ## Constants in values -/

/-- A constant is in a value, itself or in one of its parts. -/
inductive Value.HasConstant (c : String) : Value → Prop
  | enum : HasConstant c (.enum c)
  | part {v w : Value} : w ∈ v.parts → HasConstant c w → HasConstant c v

/-- All constants in a value are texts of at most `n` bytes. -/
def Value.Modest (n : Nat) (v : Value) : Prop := ∀ c, v.HasConstant c → c.utf8ByteSize ≤ n

/-- All constants in the fields of objects are texts of at most `n` bytes. -/
def Graph.Modest (n : Nat) (g : Graph) : Prop :=
  ∀ id o, g.get? id = some o → ∀ v ∈ o.values, v.Modest n

lemma Value.modest_of_parts {n : Nat} {v : Value} (hv : ∀ c, v ≠ .enum c)
    (h : ∀ w ∈ v.parts, w.Modest n) : v.Modest n := by
  intro c hc
  cases hc with
  | enum => exact absurd rfl (hv c)
  | part hw hc => exact h _ hw c hc

lemma Value.Modest.part {n : Nat} {v w : Value} (h : v.Modest n) (hw : w ∈ v.parts) : w.Modest n :=
  fun c hc => h c (.part hw hc)

lemma Value.modest_enum {n : Nat} {c : String} : (enum c).Modest n ↔ c.utf8ByteSize ≤ n := by
  constructor
  · intro h
    exact h c .enum
  · intro h c' hc
    cases hc with
    | enum => exact h
    | part hw _ => cases hw

lemma Graph.modest_empty (n : Nat) : Graph.empty.Modest n := by
  intro id o ho
  cases ho

/-! ## Faults in the bytes of texts -/

namespace Text

lemma continuations_le (k : Nat) (bytes : List UInt8) : (continuations k bytes).1 ≤ k := by
  induction k generalizing bytes with
  | zero => exact Nat.le_refl 0
  | succ k ih =>
    cases bytes with
    | nil => exact Nat.zero_le _
    | cons b rest =>
      unfold continuations
      split
      · exact Nat.succ_le_succ (ih rest)
      · exact Nat.zero_le _

lemma more_le_of_secondByte? {first low high : UInt8} {more : Nat}
    (h : secondByte? first = some (low, high, more)) : more ≤ 2 := by
  unfold secondByte? at h
  split_ifs at h <;> cases h <;> decide

lemma start_le_of_utf8FaultFrom? {start inside : Nat} {bytes : List UInt8} {f : Utf8Fault}
    (h : utf8FaultFrom? start inside bytes = some f) :
    f.start ≤ start + bytes.length ∧ ∀ n, f.span = some n → n ≤ 4 := by
  fun_induction utf8FaultFrom? start inside bytes with
  | case1 => cases h
  | case2 start second tail inside ih | case3 start second tail _ ih
  | case6 start _ _ _ _ second tail _ _ _ _ _ ih =>
    -- the fault comes behind this byte
    obtain ⟨hstart, hspan⟩ := ih h
    refine ⟨?_, hspan⟩
    rw [List.length_cons]
    omega
  | case4 | case9 =>
    cases h
    exact ⟨Nat.le_add_right _ _, fun n hn => by cases hn; decide⟩
  | case5 | case7 =>
    cases h
    exact ⟨Nat.le_add_right _ _, fun n hn => by cases hn⟩
  | case8 start first _ low high more hsecond second tail _ good ended hgood _ _ =>
    cases h
    refine ⟨Nat.le_add_right _ _, fun n hn => ?_⟩
    cases hn
    have hle := continuations_le more tail
    have hmore := more_le_of_secondByte? hsecond
    rw [hgood] at hle
    omega

lemma start_le_of_utf8Fault {bytes : List UInt8} {f : Utf8Fault} (h : utf8Fault? bytes = some f) :
    f.start ≤ bytes.length ∧ ∀ n, f.span = some n → n ≤ 4 := by
  have hbound := start_le_of_utf8FaultFrom? h
  rwa [Nat.zero_add] at hbound

end Text

namespace Wire

/-! ## The causes -/

/-- The numbers in a cause fit into words. -/
def Malformed.InWords : Malformed → Prop
  | truncated wanted offset => wanted < 2 ^ 64 ∧ offset < 2 ^ 64
  | lengthBeyond length remaining => length < 2 ^ 64 ∧ remaining < 2 ^ 64
  | invalidText fault =>
    ∀ f, fault = some f → f.start < 2 ^ 64 ∧ ∀ n, f.span = some n → n < 2 ^ 64
  | unseenObject number => number < 2 ^ 64
  | timeOutOfRange millis => millis.natAbs < 2 ^ 64
  | _ => True

open Text in
/-- The text of a fault in the bytes of a text. -/
lemma utf8ByteSize_utf8Fault {f : Text.Utf8Fault} (hstart : f.start < 2 ^ 64)
    (hspan : ∀ n, f.span = some n → n < 2 ^ 64) : f.text.utf8ByteSize ≤ 84 := by
  have hstart := utf8ByteSize_word hstart
  rcases hs : f.span with _ | n
  · have htext : f.text = "incomplete utf-8 byte sequence from index " ++ toString f.start := by
      rw [Utf8Fault.text, hs]
      rfl
    have h1 : ("incomplete utf-8 byte sequence from index " : String).utf8ByteSize = 42 := rfl
    rw [htext, String.utf8ByteSize_append]
    omega
  · have hn := utf8ByteSize_word (hspan n hs)
    have htext : f.text = "invalid utf-8 sequence of " ++ toString n ++ " bytes from index " ++
        toString f.start := by
      rw [Utf8Fault.text, hs]
      rfl
    have h1 : ("invalid utf-8 sequence of " : String).utf8ByteSize = 26 := rfl
    have h2 : (" bytes from index " : String).utf8ByteSize = 18 := rfl
    simp only [htext, String.utf8ByteSize_append]
    omega

open Text in
/-- **The text for a refused payload is short.** -/
lemma Malformed.utf8ByteSize_message {m : Malformed} (h : m.InWords) :
    m.message.utf8ByteSize ≤ 128 := by
  cases m with
  | numberTruncated | numberTooLong | tooDeep => decide
  | truncated wanted offset =>
    have hwanted := utf8ByteSize_word h.1
    have hoffset := utf8ByteSize_word h.2
    show ("unexpected end of payload: wanted " ++ toString wanted ++ " bytes at offset " ++
      toString offset).utf8ByteSize ≤ 128
    have h1 : ("unexpected end of payload: wanted " : String).utf8ByteSize = 34 := rfl
    have h2 : (" bytes at offset " : String).utf8ByteSize = 17 := rfl
    simp only [String.utf8ByteSize_append]
    omega
  | invalidFlag byte =>
    have hbyte := utf8ByteSize_word (n := byte.toNat) (byte.toNat_lt.trans (by decide))
    show ("invalid flag byte " ++ toString byte.toNat).utf8ByteSize ≤ 128
    have h1 : ("invalid flag byte " : String).utf8ByteSize = 18 := rfl
    rw [String.utf8ByteSize_append]
    omega
  | lengthBeyond length remaining =>
    have hlength := utf8ByteSize_word h.1
    have hremaining := utf8ByteSize_word h.2
    show ("length " ++ toString length ++ " exceeds remaining " ++ toString remaining ++
      " bytes").utf8ByteSize ≤ 128
    have h1 : ("length " : String).utf8ByteSize = 7 := rfl
    have h2 : (" exceeds remaining " : String).utf8ByteSize = 19 := rfl
    have h3 : (" bytes" : String).utf8ByteSize = 6 := rfl
    simp only [String.utf8ByteSize_append]
    omega
  | invalidText fault =>
    have h1 : ("invalid UTF-8 string: " : String).utf8ByteSize = 22 := rfl
    have hfault : ((fault.map Utf8Fault.text).getD "").utf8ByteSize ≤ 84 := by
      cases fault with
      | none => exact Nat.zero_le 84
      | some f => exact utf8ByteSize_utf8Fault (h f rfl).1 (h f rfl).2
    show ("invalid UTF-8 string: " ++ (fault.map Utf8Fault.text).getD "").utf8ByteSize ≤ 128
    rw [String.utf8ByteSize_append]
    omega
  | unknownTag byte =>
    have h1 : ("unknown value tag 0x" : String).utf8ByteSize = 20 := rfl
    have hdigits : (String.ofList (hexByte byte)).utf8ByteSize = 2 := by
      have hlt := byte.toNat_lt
      simp only [hexByte, String.utf8ByteSize_ofList, String.utf8Len_cons, String.utf8Len_nil]
      rw [utf8Size_digitChar (by omega), utf8Size_digitChar (by omega)]
    show ("unknown value tag 0x" ++ String.ofList (hexByte byte)).utf8ByteSize ≤ 128
    rw [String.utf8ByteSize_append]
    omega
  | unseenObject number =>
    have hnumber := utf8ByteSize_word h
    show ("back-reference " ++ toString number ++ " to unseen object").utf8ByteSize ≤ 128
    have h1 : ("back-reference " : String).utf8ByteSize = 15 := rfl
    have h2 : (" to unseen object" : String).utf8ByteSize = 17 := rfl
    simp only [String.utf8ByteSize_append]
    omega
  | timeOutOfRange millis =>
    have hmillis := utf8ByteSize_int h
    show ("received time " ++ toString millis ++ " out of range").utf8ByteSize ≤ 128
    have h1 : ("received time " : String).utf8ByteSize = 14 := rfl
    have h2 : (" out of range" : String).utf8ByteSize = 13 := rfl
    simp only [String.utf8ByteSize_append]
    omega

/-! ## Readers -/

namespace Reader

/-- At most `n` bytes are left, and the length of the payload fits into a word. -/
def Within (n : Nat) (c : Cursor) : Prop :=
  c.rest.length ≤ n ∧ c.offset + c.rest.length < 2 ^ 64

/-- With at most `n` bytes left, the reader gives an element as `post` says, or refuses for a cause
whose numbers fit into words. -/
abbrev Reads {α : Type} (n : Nat) (r : Reader α) (post : α → Prop) : Prop :=
  Settles (Within n) Malformed.InWords r post

variable {α : Type} {n : Nat}

lemma reads_byte : Reads n byte fun _ => True := by
  rintro ⟨offset, rest, trusting⟩ ⟨hrest, hlength⟩
  cases rest with
  | nil =>
    constructor
    · intro b c hrun
      cases hrun
    · intro m hrun
      cases hrun
      exact ⟨by decide, hlength⟩
  | cons b rest =>
    constructor
    · intro b' c hrun
      cases hrun
      dsimp only [List.length_cons] at hrest hlength
      exact ⟨⟨Nat.le_of_succ_le hrest, by dsimp only; omega⟩, trivial⟩
    · intro m hrun
      cases hrun

lemma reads_flag : Reads n flag fun _ => True := by
  refine reads_byte.bind fun b _ => ?_
  split
  · exact settles_pure trivial
  · split
    · exact settles_pure trivial
    · exact settles_throw trivial

lemma reads_take {k : Nat} (hk : k < 2 ^ 64) :
    Reads n (take k) fun b => b.length ≤ n ∧ b.length < 2 ^ 64 := by
  rintro ⟨offset, rest, trusting⟩ ⟨hrest, hlength⟩
  dsimp only at hrest hlength
  simp only [StateT.run, take, splitAt?_eq]
  by_cases hle : k ≤ rest.length
  · rw [if_pos hle]
    constructor
    · intro b c hrun
      cases hrun
      simp only [Within, List.length_drop, List.length_take]
      omega
    · intro m hrun
      cases hrun
  · rw [if_neg hle]
    constructor
    · intro b c hrun
      cases hrun
    · intro m hrun
      cases hrun
      exact ⟨hk, by omega⟩

lemma inWords_of_decodeFrom {bytes : List UInt8} {shift sum used : Nat} {m : Malformed}
    (h : Varint.decodeFrom shift sum used bytes = .error m) : m.InWords := by
  induction bytes generalizing shift sum used with
  | nil =>
    cases h
    exact trivial
  | cons b rest ih =>
    unfold Varint.decodeFrom at h
    split at h
    · cases h
    · split at h
      · cases h
        exact trivial
      · exact ih h

lemma reads_number : Reads n number fun _ => True := by
  rintro ⟨offset, rest, trusting⟩ ⟨hrest, hlength⟩
  dsimp only at hrest hlength
  simp only [StateT.run, number]
  rcases hdecode : Varint.decode rest with m | ⟨v, used⟩
  · constructor
    · intro w c hrun
      cases hrun
    · intro m' hrun
      cases hrun
      exact inWords_of_decodeFrom hdecode
  · obtain ⟨front, back, hfront, rfl, -⟩ := Varint.exists_numeral_of_decode hdecode
    constructor
    · intro w c hrun
      cases hrun
      rw [hfront, List.length_append] at hrest hlength
      refine ⟨?_, trivial⟩
      simp only [Within, List.length_drop, hfront, List.length_append]
      omega
    · intro m' hrun
      cases hrun

lemma reads_count : Reads n count fun k => k < 2 ^ 64 := by
  refine reads_number.bind fun w _ => ?_
  rintro c ⟨hrest, hlength⟩
  have hw := w.toNat_lt
  rw [StateT.run_bind, StateT.run_get]
  -- the comparison with the bytes that are left takes none of them
  show (∀ k t, StateT.run (if (c.trusting || decide (w.toNat ≤ c.rest.length)) = true
    then pure w.toNat else throw (.lengthBeyond w.toNat c.rest.length) : Reader Nat) c =
      .ok (k, t) → _) ∧ ∀ e, StateT.run (if (c.trusting || decide (w.toNat ≤ c.rest.length)) = true
    then pure w.toNat else throw (.lengthBeyond w.toNat c.rest.length) : Reader Nat) c =
      .error e → _
  split
  · constructor
    · intro k t hrun
      cases hrun
      exact ⟨⟨hrest, hlength⟩, hw⟩
    · intro e hrun
      cases hrun
  · constructor
    · intro k t hrun
      cases hrun
    · intro e hrun
      cases hrun
      exact ⟨hw, by omega⟩

lemma reads_bytes : Reads n bytes fun b => b.length ≤ n ∧ b.length < 2 ^ 64 :=
  reads_count.bind fun _ hk => reads_take hk

lemma reads_text : Reads n text fun s => s.utf8ByteSize ≤ n := by
  refine reads_bytes.bind fun raw hraw => ?_
  split
  · rename_i s hs
    refine settles_pure ?_
    rw [← Text.length_toBytes, Text.toBytes_of_ofBytes? hs]
    exact hraw.1
  · refine settles_throw fun f hf => ?_
    obtain ⟨hstart, hspan⟩ := Text.start_le_of_utf8Fault hf
    exact ⟨by omega, fun k hk => by have := hspan k hk; omega⟩

variable {element : Reader α} {post : α → Prop}

lemma reads_optional (h : Reads n element post) :
    Reads n (optional element) fun o => ∀ a, o = some a → post a := by
  refine reads_flag.bind fun b _ => ?_
  split
  · refine h.map fun a ha b hb => ?_
    cases hb
    exact ha
  · exact settles_pure fun a ha => nomatch ha

lemma reads_times (h : Reads n element post) (k : Nat) :
    Reads n (times element k) fun l => ∀ a ∈ l, post a := by
  induction k with
  | zero => exact settles_pure fun a ha => absurd ha List.not_mem_nil
  | succ k ih =>
    exact h.bind fun a ha => ih.map fun rest hrest => List.forall_mem_cons.mpr ⟨ha, hrest⟩

lemma reads_counted (h : Reads n element post) :
    Reads n (counted element) fun l => ∀ a ∈ l, post a :=
  reads_count.bind fun k _ => reads_times h k

end Reader

/-! ## Readers of graphs -/

namespace GraphReader

/-- The same for a reader that adds to a graph, in which constants are as short. -/
def Reads {α : Type} (n : Nat) (r : GraphReader α) (post : α → Prop) : Prop :=
  ∀ g : Graph, g.Modest n → Reader.Reads n (StateT.run r g) fun p => post p.1 ∧ p.2.Modest n

variable {α β : Type} {n : Nat} {post post' : α → Prop} {Q : β → Prop} {r : GraphReader α}

lemma reads_pure {a : α} (h : post a) : Reads n (pure a) post :=
  fun _ hg => settles_pure ⟨h, hg⟩

lemma Reads.bind {k : α → GraphReader β} (hr : Reads n r post)
    (hk : ∀ a, post a → Reads n (k a) Q) : Reads n (r >>= k) Q := by
  intro g hg
  rw [StateT.run_bind]
  exact (hr g hg).bind fun p hp => hk p.1 hp.1 p.2 hp.2

/-- The last step may change the element. -/
lemma Reads.map {f : α → β} (hr : Reads n r post) (h : ∀ a, post a → Q (f a)) :
    Reads n (r >>= fun a => pure (f a)) Q :=
  hr.bind fun a ha => reads_pure (h a ha)

lemma reads_lift {r : Reader α} (hr : Reader.Reads n r post) : Reads n (liftM r) post := by
  intro g hg
  rw [run_lift]
  exact hr.map fun a ha => ⟨ha, hg⟩

lemma reads_times (h : Reads n r post) (k : Nat) :
    Reads n (times r k) fun l => ∀ a ∈ l, post a := by
  induction k with
  | zero => exact reads_pure fun a ha => absurd ha List.not_mem_nil
  | succ k ih =>
    exact h.bind fun a ha => ih.map fun rest hrest => List.forall_mem_cons.mpr ⟨ha, hrest⟩

lemma reads_counted (h : Reads n r post) : Reads n (counted r) fun l => ∀ a ∈ l, post a :=
  (reads_lift Reader.reads_count).bind fun k _ => reads_times h k

/-! ## Values -/

variable {value : GraphReader Value}

lemma reads_entry (h : Reads n value (Value.Modest n)) :
    Reads n (entry value) fun e => ∀ v ∈ e.1 :: e.2.toList, v.Modest n := by
  refine h.bind fun k hk => (reads_lift Reader.reads_flag).bind fun b _ => ?_
  split
  · exact h.map fun v hv => List.forall_mem_cons.mpr ⟨hk, List.forall_mem_singleton.mpr hv⟩
  · exact reads_pure (List.forall_mem_singleton.mpr hk)

lemma reads_named (h : Reads n value (Value.Modest n)) :
    Reads n (named value) fun e => e.2.Modest n :=
  (reads_lift Reader.reads_text).bind fun _ _ => h.map fun _ hv => hv

lemma reads_object (h : Reads n value (Value.Modest n)) :
    Reads n (object value) (Value.Modest n) := by
  refine (reads_lift Reader.reads_text).bind fun typeName _ => ?_
  intro g hg
  rw [StateT.run_bind, StateT.run_get, pure_bind]
  show Reader.Reads n (StateT.run (set (g.insert { typeName }).1 >>= fun _ => _) g) _
  rw [StateT.run_bind, StateT.run_set, pure_bind]
  have hinsert : (g.insert { typeName }).1.Modest n := by
    intro id o ho
    rw [Graph.get?_insert] at ho
    split at ho
    · cases ho
      exact fun v hv => absurd hv List.not_mem_nil
    · exact hg id o ho
  rw [StateT.run_bind]
  refine (reads_counted (reads_named h) _ hinsert).bind ?_
  rintro ⟨fields, g'⟩ ⟨hfields, hg'⟩
  rw [StateT.run_bind, StateT.run_modify, pure_bind]
  refine settles_pure ⟨?_, ?_⟩
  · exact Value.modest_of_parts (fun c hc => nomatch hc) fun w hw => absurd hw List.not_mem_nil
  · intro id o ho
    by_cases hid : id = g.size
    · subst hid
      rw [Graph.get?_modify_self] at ho
      obtain ⟨x, -, rfl⟩ := Option.map_eq_some_iff.mp ho
      intro v hv
      obtain ⟨e, he, rfl⟩ := List.mem_map.mp hv
      exact hfields e he
    · rw [Graph.get?_modify_of_ne _ hid] at ho
      exact hg' id o ho

lemma reads_reference : Reads n reference (Value.Modest n) := by
  refine (reads_lift Reader.reads_number).bind fun w _ => ?_
  intro g hg
  rw [StateT.run_bind, StateT.run_get, pure_bind]
  split
  · refine settles_pure ⟨?_, hg⟩
    exact Value.modest_of_parts (fun c hc => nomatch hc) fun w hw => absurd hw List.not_mem_nil
  · exact settles_throw w.toNat_lt

lemma reads_content (h : Reads n value (Value.Modest n)) (t : ValueTag) :
    Reads n (content value t) (Value.Modest n) := by
  have hscalar : ∀ v : Value, (∀ c, v ≠ .enum c) → v.parts = [] → v.Modest n := by
    intro v hv hparts
    refine Value.modest_of_parts hv fun w hw => ?_
    rw [hparts] at hw
    cases hw
  cases t with
  | null => exact reads_pure (hscalar _ (fun c => by simp) rfl)
  | false => exact reads_pure (hscalar _ (fun c => by simp) rfl)
  | true => exact reads_pure (hscalar _ (fun c => by simp) rfl)
  | int => exact (reads_lift Reader.reads_number).map fun _ _ => hscalar _ (fun c => by simp) rfl
  | float =>
    exact (reads_lift (Reader.reads_take (by decide))).map fun _ _ =>
      hscalar _ (fun c => by simp) rfl
  | str => exact (reads_lift Reader.reads_text).map fun _ _ => hscalar _ (fun c => by simp) rfl
  | bytes => exact (reads_lift Reader.reads_bytes).map fun _ _ => hscalar _ (fun c => by simp) rfl
  | enum => exact (reads_lift Reader.reads_text).map fun _ hc => Value.modest_enum.mpr hc
  | list =>
    exact (reads_counted h).map fun _ hvs => Value.modest_of_parts (fun c => by simp) hvs
  | set =>
    exact (reads_counted h).map fun _ hvs => Value.modest_of_parts (fun c => by simp) hvs
  | map =>
    refine (reads_counted (reads_entry h)).map fun es hes =>
      Value.modest_of_parts (fun c => by simp) fun w hw => ?_
    obtain ⟨e, he, hw⟩ := List.mem_flatMap.mp hw
    exact hes e he w hw
  | object => exact reads_object h
  | reference => exact reads_reference

/-- **The law of the reader of values.** -/
lemma reads_value (n levels : Nat) : Reads n (GraphReader.value levels) (Value.Modest n) := by
  induction levels with
  | zero => exact fun _ _ => settles_throw trivial
  | succ levels ih =>
    refine (reads_lift Reader.reads_byte).bind fun b _ => ?_
    split
    · exact fun _ _ => settles_throw trivial
    · exact reads_content ih _

end GraphReader

end Wire

end RemoteCall
