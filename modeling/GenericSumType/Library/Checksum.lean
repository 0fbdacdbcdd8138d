/-
Module: GenericSumType.Library.Checksum
Layer: Library
Purpose: Additive checksums.  A sum that is accumulated in machine words keeps its remainder by every
  divisor of the word modulus; a remainder changes whenever one summand changes.  Numerals of uppercase
  hexadecimal digits are read by their digit values.
Imports: Mathlib.Algebra.BigOperators.Group.List.Basic, Mathlib.Data.Nat.ModEq
Trusted boundary: none
Main exports: toNat_add_mod, byteSum, byteSum_append, byteSum_set_mod_ne, digitValue, numeralValue
Open obligations: none
-/
import Mathlib.Algebra.BigOperators.Group.List.Basic
import Mathlib.Data.Nat.ModEq

namespace Checksum

section Sums

variable {w m : Nat}

/-- Adding in words of `w` bits does not change the remainder by a divisor of `2 ^ w`. -/
theorem toNat_add_mod (divides : m ∣ 2 ^ w) (s : BitVec w) (x : Nat) :
    (s + BitVec.ofNat w x).toNat % m = (s.toNat + x) % m := by
  rw [BitVec.toNat_add, BitVec.toNat_ofNat, Nat.add_mod_mod, Nat.mod_mod_of_dvd _ divides]

/-- The sum of bytes, each taken as 0 to 255. -/
def byteSum (bytes : List UInt8) : Nat := (bytes.map UInt8.toNat).sum

theorem byteSum_append (front back : List UInt8) :
    byteSum (front ++ back) = byteSum front + byteSum back := by
  rw [byteSum, List.map_append, List.sum_append]
  rfl

/-- Replacing one byte exchanges its summand. -/
theorem byteSum_set (bytes : List UInt8) (i : Fin bytes.length) (b : UInt8) :
    byteSum (bytes.set i b) + (bytes.get i).toNat = byteSum bytes + b.toNat := by
  induction bytes with
  | nil => exact i.elim0
  | cons head bytes ih =>
      cases i using Fin.cases with
      | zero =>
          simp only [byteSum, List.map_cons, List.sum_cons, Fin.val_zero, List.set_cons_zero,
            List.get_cons_zero]
          omega
      | succ i =>
          have tail := ih i
          simp only [byteSum, List.map_cons, List.sum_cons, Fin.val_succ, List.set_cons_succ,
            List.get_cons_succ'] at tail ⊢
          omega

/-- A remainder by 256 changes whenever one byte changes. -/
theorem byteSum_set_mod_ne (bytes : List UInt8) (i : Fin bytes.length) {b : UInt8}
    (differs : b ≠ bytes.get i) : byteSum (bytes.set i b) % 256 ≠ byteSum bytes % 256 := by
  intro same
  have swapped := byteSum_set bytes i b
  have bytesAgree : (bytes.get i).toNat ≡ b.toNat [MOD 256] := by
    apply Nat.ModEq.add_left_cancel (show byteSum (bytes.set i b) ≡ byteSum bytes [MOD 256] from same)
    rw [swapped]
  have equal : (bytes.get i).toNat = b.toNat :=
    bytesAgree.eq_of_lt_of_lt (bytes.get i).toNat_lt b.toNat_lt
  exact differs (UInt8.toNat_inj.mp equal).symm

end Sums

section Numerals

/-- The value of an uppercase hexadecimal digit. -/
def digitValue (c : UInt8) : Option Nat :=
  if '0'.toUInt8 ≤ c ∧ c ≤ '9'.toUInt8 then some (c.toNat - '0'.toNat)
  else if 'A'.toUInt8 ≤ c ∧ c ≤ 'F'.toUInt8 then some (c.toNat - 'A'.toNat + 10)
  else none

/-- The value of a numeral, when all of it is digits. -/
def numeralValue (digits : List UInt8) : Option Nat :=
  digits.foldlM (fun n c => (digitValue c).map (16 * n + ·)) 0

theorem numeralValue_pair {high low : UInt8} {x y : Nat} (first : digitValue high = some x)
    (second : digitValue low = some y) : numeralValue [high, low] = some (16 * x + y) := by
  simp [numeralValue, first, second]

end Numerals

end Checksum
