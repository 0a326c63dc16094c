/-
# Numbers of variable length come back

The bytes of a number, followed by anything, decode to the number and to the count of its own
bytes.  The reader carries the sum of the groups read so far and the weight of the next group; the
statement is generalised over both.
-/
import Mathlib.Algebra.Group.Nat.Defs
import Mathlib.Tactic.Lemma
import RemoteCall.Wire.Varint

namespace RemoteCall.Wire.Varint

lemma encodeNat_of_lt {n : Nat} (h : n < 128) : encodeNat n = [UInt8.ofNat n] := by
  rw [encodeNat, if_pos h]

lemma encodeNat_of_le {n : Nat} (h : 128 ≤ n) :
    encodeNat n = UInt8.ofNat (n % 128 + 128) :: encodeNat (n / 128) := by
  rw [encodeNat, if_neg (by omega)]

lemma toNat_lastByte {n : Nat} (h : n < 128) : (UInt8.ofNat n).toNat = n := by
  rw [UInt8.toNat_ofNat']
  omega

lemma toNat_innerByte (n : Nat) : (UInt8.ofNat (n % 128 + 128)).toNat = n % 128 + 128 := by
  rw [UInt8.toNat_ofNat']
  omega

/-- Reading the bytes of `n` adds `n` groups of the weight `2 ^ shift` to the sum.  As long as the
number fits into the word, the tenth byte is the last one. -/
lemma decodeFrom_encodeNat (n : Nat) :
    ∀ (shift sum used : Nat) (rest : List UInt8), n * 2 ^ shift < 2 ^ 64 →
      decodeFrom shift sum used (encodeNat n ++ rest) =
        .ok (UInt64.ofNat (sum + n * 2 ^ shift), used + (encodeNat n).length) := by
  induction n using Nat.strongRecOn with
  | ind n ih =>
    intro shift sum used rest hfit
    rcases Nat.lt_or_ge n 128 with hn | hn
    · rw [encodeNat_of_lt hn]
      have hb := toNat_lastByte hn
      simp only [List.cons_append, List.nil_append, decodeFrom, hb, if_pos hn,
        Nat.mod_eq_of_lt hn, Nat.shiftLeft_eq, List.length_cons, List.length_nil]
    · rw [encodeNat_of_le hn]
      have hb := toNat_innerByte n
      have hsplit : n / 128 * 2 ^ (shift + 7) = n / 128 * 128 * 2 ^ shift := by
        rw [Nat.pow_add, Nat.mul_comm (2 ^ shift), ← Nat.mul_assoc]
      have hsum : n % 128 * 2 ^ shift + n / 128 * 2 ^ (shift + 7) = n * 2 ^ shift := by
        rw [hsplit, ← Nat.add_mul, Nat.mod_add_div']
      have hshift : ¬ shift + 7 ≥ 64 := by
        intro hge
        have h1 : 2 ^ 64 ≤ 2 ^ (shift + 7) := Nat.pow_le_pow_right (by omega) hge
        have h2 : 2 ^ (shift + 7) ≤ n / 128 * 2 ^ (shift + 7) :=
          Nat.le_mul_of_pos_left _ (by omega)
        omega
      have hnext := ih (n / 128) (by omega) (shift + 7) (sum + n % 128 * 2 ^ shift) (used + 1) rest
        (by omega)
      have hmod : (n % 128 + 128) % 128 = n % 128 := by omega
      simp only [List.cons_append, decodeFrom, hb, hmod, Nat.shiftLeft_eq]
      rw [if_neg (by omega), if_neg hshift, hnext, Nat.add_assoc sum, hsum, List.length_cons,
        Nat.add_assoc used, Nat.add_comm 1]

/-- The bytes of a word, followed by anything, decode to the word. -/
lemma decode_encode (v : UInt64) (rest : List UInt8) :
    decode (encode v ++ rest) = .ok (v, (encode v).length) := by
  have h := decodeFrom_encodeNat v.toNat 0 0 0 rest (by simpa using v.toNat_lt)
  simpa [decode, encode] using h

/-- What the reader takes off the front it would take whatever follows. -/
lemma decodeFrom_eq_ok {bytes : List UInt8} {shift sum used n : Nat} {v : UInt64}
    (h : decodeFrom shift sum used bytes = .ok (v, n)) :
    ∃ front back, bytes = front ++ back ∧ n = used + front.length ∧
      ∀ rest, decodeFrom shift sum used (front ++ rest) = .ok (v, n) := by
  induction bytes generalizing shift sum used with
  | nil => cases h
  | cons b bytes ih =>
    simp only [decodeFrom] at h
    split at h
    · rename_i hlast
      cases h
      exact ⟨[b], bytes, rfl, rfl, fun rest => by simp [decodeFrom, hlast]⟩
    · rename_i hmore
      split at h
      · cases h
      · rename_i hroom
        obtain ⟨front, back, rfl, rfl, hfront⟩ := ih h
        refine ⟨b :: front, back, rfl, by rw [List.length_cons]; omega, fun rest => ?_⟩
        rw [List.cons_append, decodeFrom, if_neg hmore, if_neg hroom, hfront]

/-- The bytes of a number, none missing and none left over. -/
def Numeral (v : UInt64) (bytes : List UInt8) : Prop := decode bytes = .ok (v, bytes.length)

lemma numeral_encode (v : UInt64) : Numeral v (encode v) := by
  have h := decode_encode v []
  rwa [List.append_nil] at h

lemma Numeral.decode_append {v : UInt64} {bytes : List UInt8} (h : Numeral v bytes)
    (rest : List UInt8) : decode (bytes ++ rest) = .ok (v, bytes.length) := by
  obtain ⟨front, back, rfl, hlen, hfront⟩ := decodeFrom_eq_ok h
  -- all bytes are taken, so none of them stands behind the number
  obtain rfl : back = [] := by
    rw [List.length_append] at hlen
    exact List.length_eq_zero_iff.mp (by omega)
  simp only [List.append_nil] at hfront ⊢
  exact hfront rest

lemma exists_numeral_of_decode {bytes : List UInt8} {v : UInt64} {n : Nat}
    (h : decode bytes = .ok (v, n)) :
    ∃ front back, bytes = front ++ back ∧ front.length = n ∧ Numeral v front := by
  obtain ⟨front, back, rfl, rfl, hfront⟩ := decodeFrom_eq_ok h
  refine ⟨front, back, rfl, by omega, ?_⟩
  have h := hfront []
  rwa [List.append_nil, Nat.zero_add] at h

lemma Numeral.length_pos {v : UInt64} {bytes : List UInt8} (h : Numeral v bytes) :
    0 < bytes.length := by
  cases bytes with
  | nil => cases h
  | cons b bytes => simp

/-- A number is what its unfolding folds to. -/
lemma fold_unfold (v : UInt64) : fold (unfold v) = v := by
  have hlt := v.toNat_lt
  have hvalue : (unfold v).toInt =
      if v.toNat % 2 = 0 then ((v.toNat / 2 : Nat) : Int)
      else -((v.toNat / 2 + 1 : Nat) : Int) := by
    rw [unfold]
    apply Int64.toInt_ofInt_of_le <;> split <;> omega
  have hword : (if (unfold v).toInt < 0 then -2 * (unfold v).toInt - 1
      else 2 * (unfold v).toInt).toNat = v.toNat := by
    rw [hvalue]
    split <;> split <;> omega
  rw [fold, hword, UInt64.ofNat_toNat]

/-- A signed number is what its folding unfolds to. -/
lemma unfold_fold (i : Int64) : unfold (fold i) = i := by
  have hlow := i.le_toInt
  have hhigh := i.toInt_lt
  have hword : (fold i).toNat = (if i.toInt < 0 then -2 * i.toInt - 1 else 2 * i.toInt).toNat := by
    rw [fold, UInt64.toNat_ofNat']
    apply Nat.mod_eq_of_lt
    split <;> omega
  have hvalue : (if (fold i).toNat % 2 = 0 then (((fold i).toNat / 2 : Nat) : Int)
      else -(((fold i).toNat / 2 + 1 : Nat) : Int)) = i.toInt := by
    rw [hword]
    split <;> split <;> omega
  rw [unfold, hvalue, Int64.ofInt_toInt]

/-- A number takes at least one byte. -/
lemma length_encode_pos (v : UInt64) : 0 < (encode v).length := by
  rw [encode, encodeNat]
  split <;> simp

lemma length_encodeNat_le {n k : Nat} (h : n < 128 ^ (k + 1)) :
    (encodeNat n).length ≤ k + 1 := by
  induction k generalizing n with
  | zero =>
    rw [encodeNat_of_lt (by simpa using h)]
    exact Nat.le_refl 1
  | succ k ih =>
    rcases Nat.lt_or_ge n 128 with hn | hn
    · rw [encodeNat_of_lt hn]
      exact Nat.le_add_left 1 (k + 1)
    · have hdiv : n / 128 < 128 ^ (k + 1) := Nat.div_lt_of_lt_mul (by rwa [← Nat.pow_succ'])
      rw [encodeNat_of_le hn, List.length_cons]
      exact Nat.succ_le_succ (ih hdiv)

end RemoteCall.Wire.Varint
