import Mathlib.Data.Nat.Digits.Lemmas

/-!
# Numbers in Little-Endian Byte Arrays

`ofBytes` reads a list of bytes as a number with the least significant byte first; `toBytes`
writes a number into an array of a fixed width, padded with zeros at the end. A number that fits
into the width is read back (`ofBytes_toBytes`), whatever number of its highest bytes is zero.
-/

namespace LittleEndian

/-- The number in a list of bytes. -/
def ofBytes (bytes : List UInt8) : ℕ :=
  Nat.ofDigits (2 ^ 8) (bytes.map UInt8.toNat)

/-- The lowest `width` bytes of a number, as a list. -/
def toByteList : ℕ → ℕ → List UInt8
  | 0, _ => []
  | width + 1, n => UInt8.ofNat n :: toByteList width (n / 2 ^ 8)

@[simp] theorem length_toByteList (width n : ℕ) : (toByteList width n).length = width := by
  induction width generalizing n with
  | zero => rfl
  | succ width ih => rw [toByteList, List.length_cons, ih]

/-- The lowest `width` bytes of a number. -/
def toBytes (width n : ℕ) : Vector UInt8 width :=
  ⟨(toByteList width n).toArray, by simp⟩

@[simp] theorem toList_toBytes (width n : ℕ) : (toBytes width n).toList = toByteList width n :=
  rfl

/-- **Reading back** gives the number modulo the capacity of the array. -/
theorem ofBytes_toByteList (width n : ℕ) : ofBytes (toByteList width n) = n % (2 ^ 8) ^ width := by
  induction width generalizing n with
  | zero => rw [pow_zero, Nat.mod_one]; rfl
  | succ width ih =>
    have hdigit : (UInt8.ofNat n).toNat = n % 2 ^ 8 := UInt8.toNat_ofNat'
    have hsplit : n % (2 ^ 8) ^ (width + 1) =
        n % 2 ^ 8 + 2 ^ 8 * (n / 2 ^ 8 % (2 ^ 8) ^ width) := by
      rw [pow_succ' (2 ^ 8) width, Nat.mod_mul]
    rw [ofBytes, toByteList, List.map_cons, Nat.ofDigits_cons, ← ofBytes, ih, hdigit, hsplit]

/-- A number that fits is read back. -/
theorem ofBytes_toBytes {width n : ℕ} (h : n < (2 ^ 8) ^ width) :
    ofBytes (toBytes width n).toList = n := by
  rw [toList_toBytes, ofBytes_toByteList, Nat.mod_eq_of_lt h]

end LittleEndian
