/-
# How long texts are

A text is as long as its bytes in UTF-8.  A number of `k` digits takes `k` bytes.  A quoted text
shows some characters by number, and is then longer than the text itself: a character of one byte
takes at most six, and no character grows by more than that factor.
-/
import Mathlib.Data.String.Basic
import RemoteCall.Text.Quoted
import RemoteCall.Text.Utf8

namespace RemoteCall.Text

lemma length_toBytes (s : String) : (toBytes s).length = s.utf8ByteSize := rfl

lemma utf8ByteSize_replicate (n : Nat) :
    (String.ofList (List.replicate n 'a')).utf8ByteSize = n := by
  rw [String.utf8ByteSize_ofList]
  induction n with
  | zero => rfl
  | succ n ih =>
    rw [List.replicate_succ, String.utf8Len_cons, ih]
    rfl

/-! ## Numbers -/

lemma utf8Size_digitChar {n : Nat} (h : n < 16) : n.digitChar.utf8Size = 1 := by
  revert n
  decide

/-- Each digit takes one byte. -/
lemma utf8Len_toDigits {b : Nat} (hb : 1 < b) (hb' : b ≤ 16) (n : Nat) :
    String.utf8Len (Nat.toDigits b n) = (Nat.toDigits b n).length := by
  induction n using Nat.strongRecOn with
  | ind n ih =>
  by_cases h : n < b
  · rw [Nat.toDigits_of_lt_base h, String.utf8Len_cons, String.utf8Len_nil,
      utf8Size_digitChar (by omega)]
    rfl
  · have hlast : n % b < 16 := (Nat.mod_lt n (by omega)).trans_le hb'
    rw [Nat.toDigits_of_base_le hb (Nat.le_of_not_lt h), String.utf8Len_append, List.length_append,
      ih (n / b) (Nat.div_lt_self (by omega) hb), String.utf8Len_cons, String.utf8Len_nil,
      utf8Size_digitChar hlast]
    rfl

/-- A number that fits into a word has at most twenty digits. -/
lemma utf8ByteSize_word {n : Nat} (h : n < 2 ^ 64) : (toString n).utf8ByteSize ≤ 20 := by
  rw [Nat.toString_eq_ofList_toDigits, String.utf8ByteSize_ofList,
    utf8Len_toDigits (by decide) (by decide)]
  exact (Nat.length_toDigits_le_iff (by decide) (by decide)).mpr (by omega)

lemma utf8ByteSize_int {i : Int} (h : i.natAbs < 2 ^ 64) : (toString i).utf8ByteSize ≤ 21 := by
  cases i with
  | ofNat n =>
    have hn := utf8ByteSize_word (n := n) (by simpa using h)
    exact hn.trans (by decide)
  | negSucc n =>
    show ("-" ++ toString (n + 1)).utf8ByteSize ≤ 21
    have hn := utf8ByteSize_word (n := n + 1) (by simpa using h)
    have hsign : ("-" : String).utf8ByteSize = 1 := rfl
    rw [String.utf8ByteSize_append]
    omega

/-! ## Quoted texts -/

lemma length_hexDigits {n k : Nat} (hk : 0 < k) (h : n < 16 ^ k) : (hexDigits n).length ≤ k :=
  (Nat.length_toDigits_le_iff (by decide) hk).mpr h

/-- A character shown by number takes four bytes and one for each digit. -/
lemma utf8Len_shown (n : Nat) :
    String.utf8Len (['\\', 'u', '\x7b'] ++ hexDigits n ++ ['\x7d']) = (hexDigits n).length + 4 := by
  have hopen : String.utf8Len ['\\', 'u', '\x7b'] = 3 := rfl
  have hclose : String.utf8Len ['\x7d'] = 1 := rfl
  rw [String.utf8Len_append, String.utf8Len_append, hopen, hclose, hexDigits,
    utf8Len_toDigits (by decide) (by decide)]
  omega

/-- A character of one byte has at most two digits, and one of several bytes at most twice as many
as it has bytes. -/
lemma length_hexDigits_char (c : Char) : (hexDigits c.toNat).length ≤ 2 * c.utf8Size := by
  have hbound : c.toNat < 16 ^ (2 * c.utf8Size) := by
    rw [← Char.toNat_val]
    rcases c.utf8Size_eq with h | h | h | h <;> rw [h]
    · have hval := Char.utf8Size_eq_one_iff.mp h
      rw [UInt32.le_iff_toNat_le] at hval
      exact hval.trans_lt (by decide)
    · have hval := (Char.utf8Size_eq_two_iff.mp h).2
      rw [UInt32.le_iff_toNat_le] at hval
      exact hval.trans_lt (by decide)
    · have hval := (Char.utf8Size_eq_three_iff.mp h).2
      rw [UInt32.le_iff_toNat_le] at hval
      exact hval.trans_lt (by decide)
    · exact UInt32.toNat_lt c.val
  exact length_hexDigits (by have := c.utf8Size_pos; omega) hbound

lemma utf8Len_quotedChar (c : Char) : String.utf8Len (quotedChar c) ≤ 6 * c.utf8Size := by
  have hpos := c.utf8Size_pos
  have hpair : ∀ d : Char, d.utf8Size = 1 → String.utf8Len ['\\', d] ≤ 6 * c.utf8Size := by
    intro d hd
    rw [String.utf8Len_cons, String.utf8Len_cons, String.utf8Len_nil, hd]
    have hslash : ('\\' : Char).utf8Size = 1 := rfl
    omega
  unfold quotedChar
  split_ifs
  · exact hpair '0' rfl
  · exact hpair 't' rfl
  · exact hpair 'r' rfl
  · exact hpair 'n' rfl
  · exact hpair '\\' rfl
  · exact hpair '"' rfl
  · rw [utf8Len_shown]
    have hdigits := length_hexDigits_char c
    omega
  · rw [String.utf8Len_cons, String.utf8Len_nil]
    omega

/-- **A quoted text is at most six times as long**, and has two quotes. -/
lemma utf8ByteSize_quoted (s : String) : (quoted s).utf8ByteSize ≤ 6 * s.utf8ByteSize + 2 := by
  have hchars : ∀ l : List Char,
      String.utf8Len (l.flatMap quotedChar) ≤ 6 * String.utf8Len l := by
    intro l
    induction l with
    | nil => exact Nat.le_refl 0
    | cons c l ih =>
      have hc := utf8Len_quotedChar c
      rw [List.flatMap_cons, String.utf8Len_append, String.utf8Len_cons]
      omega
  have hquote : String.utf8Len ['"'] = 1 := rfl
  have hs := hchars s.toList
  have hsize : String.utf8Len s.toList = s.utf8ByteSize := by
    rw [← String.utf8ByteSize_ofList, String.ofList_toList]
  rw [quoted, String.utf8ByteSize_ofList, String.utf8Len_append, String.utf8Len_cons, hquote]
  have hq : ('"' : Char).utf8Size = 1 := rfl
  omega

end RemoteCall.Text
