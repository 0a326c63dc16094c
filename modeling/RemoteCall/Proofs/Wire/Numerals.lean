/-
# What the bytes of a number stand for

A number in full is a row of bytes that say that another one follows, and one that does not.  It
stands for the sum of its groups of seven bits, each with its weight, over the naturals, whatever
the word may hold.  The reader takes every such number of at most ten bytes, and gives the sum
modulo `2 ^ 64`: the sum itself, unless the tenth byte has more than the one bit for which there is
room.  Then the bits beyond are lost without a failure.

A number read from `n` bytes is below `128 ^ n`, so no spelling is shorter than the one that is
written, and its length is the size computed from the number of bits.
-/
import Mathlib.Algebra.BigOperators.Fin
import Mathlib.Tactic.Ring
import RemoteCall.Proofs.Wire.Words

namespace RemoteCall.Wire.Varint

/-! ## Sums of groups -/

/-- The number that some bytes stand for: the sum of their groups of seven bits, the lowest group
first. -/
def groupSum (bytes : List UInt8) : Nat :=
  ∑ i : Fin bytes.length, (bytes[i] &&& 0x7F).toNat * 128 ^ i.val

@[simp] lemma groupSum_nil : groupSum [] = 0 := rfl

@[simp] lemma groupSum_cons (b : UInt8) (bytes : List UInt8) :
    groupSum (b :: bytes) = b.toNat % 128 + 128 * groupSum bytes := by
  simp only [groupSum, toNat_and_lowBits, Finset.mul_sum]
  refine (Fin.sum_univ_succ _).trans ?_
  congr 1
  · exact Nat.mul_one _
  · refine Finset.sum_congr rfl fun i _ => ?_
    show bytes[i].toNat % 128 * 128 ^ (i.val + 1) = _
    ring

lemma groupSum_append (front back : List UInt8) :
    groupSum (front ++ back) = groupSum front + 128 ^ front.length * groupSum back := by
  induction front with
  | nil => simp
  | cons b front ih =>
    rw [List.cons_append, groupSum_cons, groupSum_cons, ih, List.length_cons]
    ring

lemma groupSum_lt (bytes : List UInt8) : groupSum bytes < 128 ^ bytes.length := by
  induction bytes with
  | nil => decide
  | cons b bytes ih =>
    rw [groupSum_cons, List.length_cons, Nat.pow_succ']
    omega

/-! ## Numbers at the front of some bytes -/

/-- Some bytes open with a number: with bytes that say that another one follows, and then one that
does not. -/
structure Opens (bytes inner : List UInt8) (last : UInt8) : Prop where
  front : inner ++ [last] <+: bytes
  goesOn : ∀ b ∈ inner, 128 ≤ b.toNat
  ends : last.toNat < 128

lemma exists_opens_or (bytes : List UInt8) :
    (∃ inner last, Opens bytes inner last) ∨ ∀ b ∈ bytes, 128 ≤ b.toNat := by
  rcases hfind : bytes.find? (·.toNat < 128) with _ | last
  · right
    simpa [List.find?_eq_none] using hfind
  · left
    obtain ⟨hends, inner, rest, rfl, hgoesOn⟩ := List.find?_eq_some_iff_append.1 hfind
    refine ⟨inner, last, ⟨rest, by simp⟩, fun b hb => ?_, by simpa using hends⟩
    simpa using hgoesOn b hb

lemma decodeFrom_of_ends {inner : List UInt8} {last : UInt8}
    (hinner : ∀ b ∈ inner, 128 ≤ b.toNat) (hlast : last.toNat < 128) {shift : Nat}
    (hroom : shift + 7 * inner.length < 64) (sum used : Nat) (rest : List UInt8) :
    decodeFrom shift sum used (inner ++ last :: rest) =
      .ok (UInt64.ofNat (sum + groupSum (inner ++ [last]) * 2 ^ shift),
        used + (inner.length + 1)) := by
  induction inner generalizing shift sum used with
  | nil => simp [decodeFrom, hlast, Nat.shiftLeft_eq]
  | cons b inner ih =>
    obtain ⟨hb, hinner⟩ := List.forall_mem_cons.1 hinner
    rw [List.length_cons] at hroom
    have hsum : sum + (b.toNat % 128) <<< shift + groupSum (inner ++ [last]) * 2 ^ (shift + 7) =
        sum + groupSum (b :: (inner ++ [last])) * 2 ^ shift := by
      rw [groupSum_cons, Nat.shiftLeft_eq]
      ring
    rw [List.cons_append, decodeFrom, if_neg (Nat.not_lt.2 hb), if_neg (by omega),
      ih hinner (by omega), hsum, List.cons_append, List.length_cons, Nat.add_assoc used,
      Nat.add_comm 1]

lemma decodeFrom_of_goesOn {inner : List UInt8} (hinner : ∀ b ∈ inner, 128 ≤ b.toNat)
    {shift : Nat} (hshift : shift < 64) (hlong : 64 ≤ shift + 7 * inner.length) (sum used : Nat)
    (rest : List UInt8) :
    decodeFrom shift sum used (inner ++ rest) = .error .numberTooLong := by
  induction inner generalizing shift sum used with
  | nil =>
    rw [List.length_nil] at hlong
    omega
  | cons b inner ih =>
    obtain ⟨hb, hinner⟩ := List.forall_mem_cons.1 hinner
    rw [List.length_cons] at hlong
    rw [List.cons_append, decodeFrom, if_neg (Nat.not_lt.2 hb)]
    -- the reader gives up after the tenth byte, however many of them go on
    by_cases hnext : shift + 7 ≥ 64
    · rw [if_pos hnext]
    · rw [if_neg hnext, ih hinner (by omega) (by omega)]

lemma decodeFrom_ne_ok {bytes : List UInt8} (hbytes : ∀ b ∈ bytes, 128 ≤ b.toNat)
    (shift sum used : Nat) (r : UInt64 × Nat) : decodeFrom shift sum used bytes ≠ .ok r := by
  induction bytes generalizing shift sum used with
  | nil => exact fun h => by cases h
  | cons b bytes ih =>
    obtain ⟨hb, hbytes⟩ := List.forall_mem_cons.1 hbytes
    rw [decodeFrom, if_neg (Nat.not_lt.2 hb)]
    split
    · exact fun h => by cases h
    · exact ih hbytes _ _ _

variable {bytes inner : List UInt8} {last : UInt8} {v : UInt64} {n : Nat}

/-- The reader takes a number of at most ten bytes, whatever bits the tenth one has. -/
lemma Opens.decode_eq (h : Opens bytes inner last) :
    decode bytes =
      if inner.length < 10 then
        .ok (UInt64.ofNat (groupSum (inner ++ [last])), inner.length + 1)
      else .error .numberTooLong := by
  obtain ⟨⟨rest, rfl⟩, hinner, hlast⟩ := h
  rw [List.append_assoc, List.singleton_append, decode]
  split
  · rw [decodeFrom_of_ends hinner hlast (by omega), Nat.pow_zero, Nat.mul_one, Nat.zero_add,
      Nat.zero_add]
  · exact decodeFrom_of_goesOn hinner (by decide) (by omega) 0 0 _

lemma exists_opens_of_decode (h : decode bytes = .ok (v, n)) :
    ∃ inner last, Opens bytes inner last ∧ inner.length < 10 ∧ inner.length + 1 = n ∧
      v.toNat = groupSum (inner ++ [last]) % 2 ^ 64 := by
  rcases exists_opens_or bytes with ⟨inner, last, hopens⟩ | hnone
  · rw [hopens.decode_eq] at h
    split at h
    · rename_i hlt
      cases h
      exact ⟨inner, last, hopens, hlt, rfl, UInt64.toNat_ofNat'⟩
    · cases h
  · exact absurd h (decodeFrom_ne_ok hnone 0 0 0 _)

/-! ## The tenth byte -/

/-- The tenth byte of a number has bits beyond the word. -/
def Spills (inner : List UInt8) (last : UInt8) : Prop := inner.length = 9 ∧ 1 < last.toNat

lemma Opens.two_pow_le_iff (h : Opens bytes inner last) (hlt : inner.length < 10) :
    2 ^ 64 ≤ groupSum (inner ++ [last]) ↔ Spills inner last := by
  have hsum : groupSum (inner ++ [last]) = groupSum inner + 128 ^ inner.length * last.toNat := by
    rw [groupSum_append, groupSum_cons, groupSum_nil, Nat.mul_zero, Nat.add_zero,
      Nat.mod_eq_of_lt h.ends]
  have hinner := groupSum_lt inner
  rcases Nat.lt_or_eq_of_le (Nat.le_of_lt_succ hlt) with hshort | hnine
  · -- at most nine groups of seven bits fit into 63 bits
    have hall := groupSum_lt (inner ++ [last])
    have hlength : (inner ++ [last]).length ≤ 9 := by
      rw [List.length_append, List.length_singleton]
      omega
    have hpow : 128 ^ (inner ++ [last]).length ≤ 128 ^ 9 :=
      Nat.pow_le_pow_right (by decide) hlength
    have hnot : ¬ Spills inner last := fun hspills => Nat.ne_of_lt hshort hspills.1
    simp only [hnot, iff_false]
    omega
  · rw [hnine] at hsum hinner
    simp only [Spills, hnine, true_and]
    omega

/-- **What is read for a number.**  The bytes that are taken are a number in full, and the word is
the sum of its groups modulo `2 ^ 64`.  It is the sum itself unless the tenth byte has bits beyond
the word.  A number of `2 ^ 64` or more is refused with the same exception, and a number of at most
ten bytes is never refused.  The reader that puts the groups into a word by shifts gives the
same. -/
theorem sum_of_decoded (bytes : List UInt8) :
    (∀ v n, decode bytes = .ok (v, n) →
      ∃ inner last, Opens bytes inner last ∧ inner.length + 1 = n ∧
        v.toNat = groupSum (inner ++ [last]) % 2 ^ 64 ∧
        (v.toNat = groupSum (inner ++ [last]) ↔ ¬ Spills inner last)) ∧
    (∀ inner last, Opens bytes inner last → 2 ^ 64 ≤ groupSum (inner ++ [last]) →
      ((decode bytes).mapError Malformed.toFailure = .error (.marshalling "VarInt overflow") ↔
        ¬ Spills inner last)) ∧
    (∀ inner last, Opens bytes inner last → inner.length < 10 →
      decode bytes = .ok (UInt64.ofNat (groupSum (inner ++ [last])), inner.length + 1)) ∧
    decode bytes = decodeWord 0 0 0 bytes := by
  refine ⟨fun v n h => ?_, fun inner last hopens hlarge => ?_, fun inner last hopens hlt => ?_,
    decode_eq_decodeWord bytes⟩
  · obtain ⟨inner, last, hopens, hlt, hn, hv⟩ := exists_opens_of_decode h
    refine ⟨inner, last, hopens, hn, hv, ?_⟩
    rw [hv, ← hopens.two_pow_le_iff hlt, Nat.not_le, Nat.mod_eq_iff_lt (by decide)]
  · rw [hopens.decode_eq]
    split
    · rename_i hlt
      have hspills := (hopens.two_pow_le_iff hlt).1 hlarge
      simp only [Except.mapError, hspills, not_true_eq_false, iff_false]
      exact fun h => by cases h
    · rename_i hlong
      have hnot : ¬ Spills inner last := fun hspills => hlong (by rw [hspills.1]; decide)
      simp only [hnot, not_false_eq_true, iff_true]
      rfl
  · rw [hopens.decode_eq, if_pos hlt]

/-- The largest word with a byte behind it is read as its sum; eleven bytes are refused. -/
theorem sum_of_decoded_largest :
    (decode (List.replicate 9 0xFF ++ [0x01, 0x2A]) = .ok (0xFFFFFFFFFFFFFFFF, 10) ∧
      ∃ inner last, Opens (List.replicate 9 0xFF ++ [0x01, 0x2A]) inner last ∧
        inner.length + 1 = 10 ∧
        (0xFFFFFFFFFFFFFFFF : UInt64).toNat = groupSum (inner ++ [last]) % 2 ^ 64 ∧
        ((0xFFFFFFFFFFFFFFFF : UInt64).toNat = groupSum (inner ++ [last]) ↔
          ¬ Spills inner last)) ∧
    (Opens (List.replicate 10 0x80 ++ [0x01]) (List.replicate 10 0x80) 0x01 ∧
      2 ^ 64 ≤ groupSum (List.replicate 10 0x80 ++ [0x01]) ∧
      ((decode (List.replicate 10 0x80 ++ [0x01])).mapError Malformed.toFailure =
          .error (.marshalling "VarInt overflow") ↔
        ¬ Spills (List.replicate 10 0x80) 0x01)) := by
  have hopens : Opens (List.replicate 10 0x80 ++ [0x01]) (List.replicate 10 0x80) 0x01 :=
    ⟨List.prefix_rfl, fun b hb => List.eq_of_mem_replicate hb ▸ by decide, by decide⟩
  have hlarge : 2 ^ 64 ≤ groupSum (List.replicate 10 0x80 ++ [0x01]) := by decide +kernel
  exact ⟨⟨rfl, (sum_of_decoded _).1 _ _ rfl⟩, hopens, hlarge,
    (sum_of_decoded _).2.1 _ _ hopens hlarge⟩

/-- A number that stands for `2 ^ 64` in ten bytes is read as zero. -/
theorem zero_of_two_pow_sixtyFour :
    Opens (List.replicate 9 0x80 ++ [0x02]) (List.replicate 9 0x80) 0x02 ∧
      groupSum (List.replicate 9 0x80 ++ [0x02]) = 2 ^ 64 ∧
      decode (List.replicate 9 0x80 ++ [0x02]) = .ok (0, 10) :=
  ⟨⟨List.prefix_rfl, fun b hb => List.eq_of_mem_replicate hb ▸ by decide, by decide⟩,
    by decide +kernel, rfl⟩

/-! ## The shortest bytes of a number -/

lemma lt_of_decode (h : decode bytes = .ok (v, n)) : v.toNat < 128 ^ n := by
  obtain ⟨inner, last, -, -, rfl, hv⟩ := exists_opens_of_decode h
  have hlt := groupSum_lt (inner ++ [last])
  rw [List.length_append, List.length_singleton] at hlt
  exact hv ▸ (Nat.mod_le _ _).trans_lt hlt

lemma size_pos (v : UInt64) : 0 < size v := by
  rw [size]
  split <;> omega

lemma size_le_iff {k : Nat} (hk : 0 < k) : size v ≤ k ↔ v.toNat < 128 ^ k := by
  have hpow : 128 ^ k = 2 ^ (7 * k) := (Nat.pow_mul 2 7 k).symm
  rw [size, hpow]
  split
  · rename_i hv
    have hone : 1 ≤ k := hk
    simp [hv, hone]
  · rename_i hv
    rw [← Nat.log2_lt (by simpa [← UInt64.toNat_inj] using hv)]
    omega

lemma length_encode (v : UInt64) : (encode v).length = size v := by
  apply Nat.le_antisymm
  · have hlt : v.toNat < 128 ^ (size v - 1 + 1) := by
      rw [Nat.sub_add_cancel (size_pos v)]
      exact (size_le_iff (size_pos v)).1 le_rfl
    have hle := length_encodeNat_le hlt
    rwa [Nat.sub_add_cancel (size_pos v)] at hle
  · exact (size_le_iff (length_encode_pos v)).2 (lt_of_decode (numeral_encode v))

lemma size_le_of_decode (h : decode bytes = .ok (v, n)) : size v ≤ bytes.length := by
  obtain ⟨front, back, rfl, rfl, hnumeral⟩ := exists_numeral_of_decode h
  rw [List.length_append]
  exact Nat.le_add_right_of_le ((size_le_iff hnumeral.length_pos).2 (lt_of_decode h))

/-- **Numbers come back, and no bytes are wasted.**  The bytes of a word, whatever follows, decode
to the word and to its size, and no fewer bytes decode to it.  A signed number comes back through
its folding, and folding and unfolding undo each other.  All of these functions are those of a
machine on words. -/
theorem number_comes_back (v : UInt64) (i : Int64) (rest : List UInt8) :
    decode (encode v ++ rest) = .ok (v, size v) ∧
    (∀ short n, short.length < size v → decode short ≠ .ok (v, n)) ∧
    (decode (encodeSigned i ++ rest)).map (fun (w, n) => (unfold w, n)) =
      .ok (i, size (fold i)) ∧
    unfold (fold i) = i ∧ fold (unfold v) = v ∧
    encode v = encodeWord v ∧ size v = sizeWord v ∧ fold i = foldWord i ∧
      unfold v = unfoldWord v := by
  have hread (w : UInt64) : decode (encode w ++ rest) = .ok (w, size w) := by
    rw [decode_encode, length_encode]
  refine ⟨hread v, fun short n hshort hdecode => ?_, ?_, unfold_fold i, fold_unfold v,
    encode_eq_encodeWord v, size_eq_sizeWord v, fold_eq_foldWord i, unfold_eq_unfoldWord v⟩
  · exact Nat.not_le.2 hshort (size_le_of_decode hdecode)
  · rw [encodeSigned, hread]
    simp only [Except.map, unfold_fold]

/-- The largest word takes ten bytes, and so does the lowest signed number. -/
theorem number_comes_back_extremes :
    size 0xFFFFFFFFFFFFFFFF = 10 ∧
    decode (encode 0xFFFFFFFFFFFFFFFF ++ [0x2A]) =
      .ok (0xFFFFFFFFFFFFFFFF, size 0xFFFFFFFFFFFFFFFF) ∧
    ((List.replicate 9 0x7F).length < size 0xFFFFFFFFFFFFFFFF ∧
      decode (List.replicate 9 0x7F) ≠ .ok (0xFFFFFFFFFFFFFFFF, 9)) ∧
    (decode (encodeSigned Int64.minValue ++ [0x2A])).map (fun (w, n) => (unfold w, n)) =
      .ok (Int64.minValue, size (fold Int64.minValue)) := by
  obtain ⟨hread, hshort, hsigned, -⟩ :=
    number_comes_back 0xFFFFFFFFFFFFFFFF Int64.minValue [0x2A]
  have hsize : size 0xFFFFFFFFFFFFFFFF = 10 := by decide
  have hlt : (List.replicate 9 (0x7F : UInt8)).length < size 0xFFFFFFFFFFFFFFFF := by
    rw [hsize]
    decide
  exact ⟨hsize, hread, ⟨hlt, hshort _ 9 hlt⟩, hsigned⟩

end RemoteCall.Wire.Varint
