/-
# Numbers of fixed width

Frame headers, floating-point numbers and request identifiers have a fixed width: the highest
byte comes first.
-/

namespace RemoteCall.Wire

/-- The lowest `n` bytes of a number, the highest of them first. -/
def bigEndian : Nat → Nat → List UInt8
  | 0, _ => []
  | n + 1, v => bigEndian n (v / 256) ++ [UInt8.ofNat (v % 256)]

/-- The number that bytes stand for, the highest first. -/
def ofBigEndian (bytes : List UInt8) : Nat :=
  bytes.foldl (fun sum b => sum * 256 + b.toNat) 0

@[simp] theorem length_bigEndian (n v : Nat) : (bigEndian n v).length = n := by
  induction n generalizing v with
  | zero => rfl
  | succ n ih => simp [bigEndian, ih]

theorem ofBigEndian_bigEndian (n v : Nat) : ofBigEndian (bigEndian n v) = v % Nat.pow 256 n := by
  induction n generalizing v with
  | zero => simp [bigEndian, ofBigEndian, Nat.mod_one]
  | succ n ih =>
    have h := ih (v / 256)
    simp only [ofBigEndian] at h
    simp only [bigEndian, ofBigEndian, List.foldl_append, h, List.foldl_cons, List.foldl_nil]
    have hb : (UInt8.ofNat (v % 256)).toNat = v % 256 := by simp
    rw [hb, Nat.pow_eq, Nat.pow_eq, Nat.pow_succ, Nat.mul_comm (256 ^ n) 256, Nat.mod_mul]
    omega

end RemoteCall.Wire
