/-
# Numbers of variable length in words

The reader and the writer of numbers count in the naturals, signed numbers are folded in the
integers, and the size goes by a logarithm.  A machine does all of it in words of 64 bits, with
shifts, masks and leading zeros.  Here the same functions are given in these operations, each with
the proof that it is the same.  Groups of different bytes take different places of the word, so
putting them together bit by bit is adding them up; only the tenth byte reaches beyond the word,
and what it has there is lost.
-/
import Mathlib.Data.Nat.Bitwise
import RemoteCall.Proofs.Wire.Varint

namespace RemoteCall.Wire.Varint

/-! ## Masks and shifts as division -/

lemma toNat_and_lowBits (b : UInt8) : (b &&& 0x7F).toNat = b.toNat % 128 := by
  rw [UInt8.toNat_and]
  exact Nat.and_two_pow_sub_one_eq_mod b.toNat 7

lemma and_topBit_eq_zero_iff (b : UInt8) : b &&& 0x80 = 0 ↔ b.toNat < 128 := by
  have hlt := b.toNat_lt
  have htop : (b &&& 0x80).toNat = (b.toNat.testBit 7).toNat * 2 ^ 7 := by
    rw [UInt8.toNat_and]
    exact Nat.and_two_pow b.toNat 7
  rw [← UInt8.toNat_inj, htop, Nat.testBit_eq_decide_div_mod_eq, UInt8.toNat_zero]
  by_cases h : b.toNat / 2 ^ 7 % 2 = 1
  · simp only [h, decide_true, Bool.toNat_true]
    omega
  · simp only [h, decide_false, Bool.toNat_false]
    omega

lemma toNat_or_topBit {b : UInt8} (h : b.toNat < 128) : (b ||| 0x80).toNat = b.toNat + 128 := by
  rw [UInt8.toNat_or, Nat.or_comm, Nat.add_comm]
  exact (Nat.two_pow_add_eq_or_of_lt (i := 7) h 1).symm

lemma toNat_lowBits (v : UInt64) : (v &&& 0x7F).toUInt8.toNat = v.toNat % 128 := by
  have hand : (v &&& 0x7F).toNat = v.toNat % 128 := by
    rw [UInt64.toNat_and]
    exact Nat.and_two_pow_sub_one_eq_mod v.toNat 7
  rw [UInt64.toNat_toUInt8, hand]
  omega

lemma toNat_shiftRight_seven (v : UInt64) : (v >>> 7).toNat = v.toNat / 128 := by
  rw [UInt64.toNat_shiftRight]
  exact Nat.shiftRight_eq_div_pow v.toNat 7

lemma shiftRight_seven_eq_zero_iff (v : UInt64) : v >>> 7 = 0 ↔ v.toNat < 128 := by
  rw [← UInt64.toNat_inj, toNat_shiftRight_seven, UInt64.toNat_zero]
  omega

/-! ## Reading -/

/-- Puts the group of a byte into a word, from the place `shift` on.  Bits beyond the word are
lost. -/
def putGroup (word : UInt64) (shift : Nat) (b : UInt8) : UInt64 :=
  word ||| (b &&& 0x7F).toUInt64 <<< UInt64.ofNat shift

/-- Reads a number of which `used` bytes have been read into `word`; the next byte has its place
at `shift`. -/
def decodeWord (shift : Nat) (word : UInt64) (used : Nat) :
    List UInt8 → Except Malformed (UInt64 × Nat)
  | [] => .error .numberTruncated
  | b :: rest =>
    let word := putGroup word shift b
    if b &&& 0x80 = 0 then .ok (word, used + 1)
    else if shift + 7 ≥ 64 then .error .numberTooLong
    else decodeWord (shift + 7) word (used + 1) rest

lemma toNat_group_shiftLeft (b : UInt8) {shift : Nat} (hshift : shift < 64) :
    ((b &&& 0x7F).toUInt64 <<< UInt64.ofNat shift).toNat =
      2 ^ shift * (b.toNat % 128 % 2 ^ (64 - shift)) := by
  have hroom : 2 ^ 64 = 2 ^ (64 - shift) * 2 ^ shift := by
    rw [← Nat.pow_add, Nat.sub_add_cancel (Nat.le_of_lt hshift)]
  have hcount : (UInt64.ofNat shift).toNat % 64 = shift := by
    rw [UInt64.toNat_ofNat']
    omega
  rw [UInt64.toNat_shiftLeft, UInt8.toNat_toUInt64, toNat_and_lowBits, hcount, Nat.shiftLeft_eq,
    hroom, Nat.mul_mod_mul_right, Nat.mul_comm]

/-- A group that is put in above all the others is added to them, modulo `2 ^ 64`. -/
lemma putGroup_ofNat {sum shift : Nat} (b : UInt8) (hsum : sum < 2 ^ shift) (hshift : shift < 64) :
    putGroup (UInt64.ofNat sum) shift b = UInt64.ofNat (sum + b.toNat % 128 * 2 ^ shift) := by
  have hroom : 2 ^ 64 = 2 ^ shift * 2 ^ (64 - shift) := by
    rw [← Nat.pow_add, Nat.add_sub_cancel' (Nat.le_of_lt hshift)]
  have hword : sum < 2 ^ 64 := Nat.lt_trans hsum (Nat.pow_lt_pow_right (by decide) hshift)
  have hmod : (sum + b.toNat % 128 * 2 ^ shift) % 2 ^ 64 =
      sum + 2 ^ shift * (b.toNat % 128 % 2 ^ (64 - shift)) := by
    rw [hroom, Nat.mod_mul, Nat.add_mul_mod_self_right, Nat.mod_eq_of_lt hsum,
      Nat.add_mul_div_right _ _ (Nat.two_pow_pos shift), Nat.div_eq_of_lt hsum, Nat.zero_add]
  -- no bit of the group meets a bit of the sum, so one on the other is their sum
  rw [putGroup, ← UInt64.toNat_inj, UInt64.toNat_or, toNat_group_shiftLeft b hshift,
    UInt64.toNat_ofNat', UInt64.toNat_ofNat', hmod, Nat.mod_eq_of_lt hword, Nat.or_comm,
    ← Nat.two_pow_add_eq_or_of_lt hsum, Nat.add_comm]

/-- As long as the sum is below the weight of the next group, the word holds it in full. -/
lemma decodeFrom_eq_decodeWord {sum shift : Nat} (hsum : sum < 2 ^ shift) (hshift : shift < 64)
    (used : Nat) (bytes : List UInt8) :
    decodeFrom shift sum used bytes = decodeWord shift (UInt64.ofNat sum) used bytes := by
  induction bytes generalizing shift sum used with
  | nil => rfl
  | cons b rest ih =>
    simp only [decodeFrom, decodeWord, putGroup_ofNat b hsum hshift, and_topBit_eq_zero_iff,
      Nat.shiftLeft_eq]
    split
    · rfl
    · split
      · rfl
      · have hnext : sum + b.toNat % 128 * 2 ^ shift < 2 ^ (shift + 7) := by
          have hgroup : b.toNat % 128 + 1 ≤ 128 := Nat.mod_lt _ (by decide)
          calc sum + b.toNat % 128 * 2 ^ shift
              < 2 ^ shift + b.toNat % 128 * 2 ^ shift := Nat.add_lt_add_right hsum _
            _ = (b.toNat % 128 + 1) * 2 ^ shift := by rw [Nat.succ_mul, Nat.add_comm]
            _ ≤ 128 * 2 ^ shift := Nat.mul_le_mul_right _ hgroup
            _ = 2 ^ (shift + 7) := by rw [Nat.pow_add, Nat.mul_comm]
        exact ih hnext (by omega) (used + 1)

lemma decode_eq_decodeWord (bytes : List UInt8) : decode bytes = decodeWord 0 0 0 bytes :=
  decodeFrom_eq_decodeWord (by decide) (by decide) 0 bytes

/-! ## Writing -/

/-- The bytes of a word, cut off seven bits at a time. -/
def encodeWord (v : UInt64) : List UInt8 :=
  if h : v >>> 7 = 0 then [(v &&& 0x7F).toUInt8]
  else ((v &&& 0x7F).toUInt8 ||| 0x80) :: encodeWord (v >>> 7)
termination_by v.toNat
decreasing_by
  rw [shiftRight_seven_eq_zero_iff] at h
  rw [toNat_shiftRight_seven]
  omega

lemma encode_eq_encodeWord (v : UInt64) : encode v = encodeWord v := by
  rw [encode]
  fun_induction encodeWord v with
  | case1 v h =>
    rw [shiftRight_seven_eq_zero_iff] at h
    have hbyte : UInt8.ofNat v.toNat = (v &&& 0x7F).toUInt8 := by
      rw [← UInt8.toNat_inj, toNat_lastByte h, toNat_lowBits, Nat.mod_eq_of_lt h]
    rw [encodeNat_of_lt h, hbyte]
  | case2 v h ih =>
    rw [shiftRight_seven_eq_zero_iff] at h
    have hlow : (v &&& 0x7F).toUInt8.toNat < 128 := by
      rw [toNat_lowBits]
      omega
    have hbyte : UInt8.ofNat (v.toNat % 128 + 128) = (v &&& 0x7F).toUInt8 ||| 0x80 := by
      rw [← UInt8.toNat_inj, toNat_innerByte, toNat_or_topBit hlow, toNat_lowBits]
    rw [encodeNat_of_le (Nat.not_lt.1 h), hbyte, ← ih, toNat_shiftRight_seven]

/-- The number of bytes of a word, from the zeros in front of its highest bit. -/
def sizeWord (v : UInt64) : Nat :=
  if v = 0 then 1 else (64 - v.toBitVec.clz.toNat + 6) / 7

lemma log2_eq_of_ne_zero {v : UInt64} (hv : v ≠ 0) :
    Nat.log2 v.toNat + 1 = 64 - v.toBitVec.clz.toNat := by
  have hnat : v.toNat ≠ 0 := fun h => hv (UInt64.toNat_inj.1 (h.trans UInt64.toNat_zero.symm))
  have hzero : v.toBitVec ≠ 0#64 := fun h => hv (UInt64.toBitVec_inj.1 h)
  have hclz : v.toBitVec.clz.toNat < 64 := BitVec.clz_lt_iff_ne_zero.2 hzero
  have hbits : 64 - v.toBitVec.clz.toNat = 63 - v.toBitVec.clz.toNat + 1 := by omega
  have hhigh : v.toNat < 2 ^ (64 - v.toBitVec.clz.toNat) := BitVec.toNat_lt_two_pow_sub_clz
  have hlow : 2 ^ (63 - v.toBitVec.clz.toNat) ≤ v.toNat :=
    BitVec.two_pow_sub_clz_le_toNat_of_ne_zero (by decide) hzero
  rw [hbits] at hhigh ⊢
  rw [(Nat.log2_eq_iff hnat).2 ⟨hlow, hhigh⟩]

lemma size_eq_sizeWord (v : UInt64) : size v = sizeWord v := by
  rw [size, sizeWord]
  by_cases hv : v = 0
  · rw [if_pos hv, if_pos hv]
  · rw [if_neg hv, if_neg hv, log2_eq_of_ne_zero hv]

/-! ## Signed numbers -/

/-- Folds by a shift, with all bits turned over if the number is negative. -/
def foldWord (i : Int64) : UInt64 := ((i <<< 1) ^^^ (i >>> 63)).toUInt64

/-- Unfolds by a shift, with all bits turned over if the lowest one was set. -/
def unfoldWord (v : UInt64) : Int64 := (v >>> 1).toInt64 ^^^ -(v &&& 1).toInt64

lemma toInt_eq_toUInt64 (i : Int64) :
    i.toInt = if i.toUInt64.toNat < 2 ^ 63 then (i.toUInt64.toNat : Int)
      else i.toUInt64.toNat - 2 ^ 64 := by
  have h : i.toInt = if 2 * i.toUInt64.toNat < 2 ^ 64 then (i.toUInt64.toNat : Int)
      else i.toUInt64.toNat - (2 ^ 64 : Nat) := BitVec.toInt_eq_toNat_cond i.toBitVec
  rw [h]
  split <;> split <;> omega

/-- Shifted down by all its places, a number is its sign. -/
lemma shiftRight_eq_sign (i : Int64) : i >>> 63 = if i.toInt < 0 then -1 else 0 := by
  have hlow := i.le_toInt
  have hhigh := i.toInt_lt
  have hvalue : (i >>> 63).toInt = i.toInt / 2 ^ 63 := by
    rw [← Int64.toInt_toBitVec, Int64.toBitVec_shiftRight, BitVec.toInt_sshiftRight',
      Int.shiftRight_eq_div_pow]
    rfl
  have hminus : (-1 : Int64).toInt = -1 := rfl
  rw [← Int64.toInt_inj, hvalue]
  split
  · omega
  · rw [Int64.toInt_zero]
    omega

lemma fold_eq_foldWord (i : Int64) : fold i = foldWord i := by
  have hi := toInt_eq_toUInt64 i
  have hlt := i.toUInt64.toNat_lt
  have hdouble : (i <<< 1).toUInt64.toNat = 2 * i.toUInt64.toNat % 2 ^ 64 := by
    show (i.toUInt64 <<< 1).toNat = _
    rw [UInt64.toNat_shiftLeft, UInt64.toNat_one, Nat.shiftLeft_eq, Nat.mul_comm]
  rw [fold, foldWord, shiftRight_eq_sign, ← UInt64.toNat_inj, UInt64.toNat_ofNat']
  split
  · rw [Int64.xor_neg_one, Int64.toUInt64_not, UInt64.toNat_not, hdouble, UInt64.size]
    split at hi <;> omega
  · rw [Int64.xor_zero, hdouble]
    split at hi <;> omega

lemma unfold_eq_unfoldWord (v : UInt64) : unfold v = unfoldWord v := by
  have hlt := v.toNat_lt
  have hshift : (v >>> 1).toNat = v.toNat / 2 := by
    rw [UInt64.toNat_shiftRight]
    exact Nat.shiftRight_eq_div_pow v.toNat 1
  have hhalf : (v >>> 1).toInt64.toInt = (v.toNat / 2 : Nat) := by
    rw [toInt_eq_toUInt64, UInt64.toUInt64_toInt64, hshift]
    omega
  have hlast : v &&& 1 = UInt64.ofNat (v.toNat % 2) := by
    have hand : v.toNat &&& 1 = v.toNat % 2 := Nat.and_two_pow_sub_one_eq_mod v.toNat 1
    rw [← UInt64.toNat_inj, UInt64.toNat_and, UInt64.toNat_ofNat', UInt64.toNat_one, hand]
    omega
  rw [unfold, unfoldWord, hlast, ← Int64.toInt_inj]
  rcases Nat.mod_two_eq_zero_or_one v.toNat with h | h
  · rw [h, if_pos rfl, Int64.toInt_ofInt_of_le (by omega) (by omega)]
    show _ = ((v >>> 1).toInt64 ^^^ 0).toInt
    rw [Int64.xor_zero, hhalf]
  · rw [h, if_neg (by decide), Int64.toInt_ofInt_of_le (by omega) (by omega)]
    show _ = ((v >>> 1).toInt64 ^^^ -1).toInt
    rw [Int64.xor_neg_one, Int64.toInt_not, hhalf, Int.bmod_eq_of_le (by omega) (by omega)]
    omega

end RemoteCall.Wire.Varint
