/-
Module: GenericSumType.Proofs.ProtocolChecksum
Layer: Proofs
Purpose: What the checksum of a message is, the remainder of the sum of its bytes by 256, and the text of
  two digits that shows it.  The two functions compute and show it for every message, whatever the width of
  `unsigned int` and the signedness of `char` are.
Imports: GenericSumType.Examples.ProtocolChecksum, GenericSumType.Library.Checksum,
  GenericSumType.Library.CString, GenericSumType.Proofs.Alignment
Trusted boundary: human-reviewed statement of purpose
Main exports: checksum, Shows, sumLoop_mod, computeChecksum_eq, formatChecksumHex_shows, checksum_text_correct
Open obligations: none
-/
import GenericSumType.Examples.ProtocolChecksum
import GenericSumType.Library.Checksum
import GenericSumType.Library.CString
import GenericSumType.Proofs.Alignment

namespace GenericSumType

namespace ProtocolFrame

open CString Checksum

/-! ### What the checksum of a message is -/

/-- The remainder of the sum of the bytes by 256. -/
def checksum (message : List UInt8) : Nat := byteSum message % 256

example : checksum ("R,PWC,Power=A,Freq=B,Pulse=C".toList.map Char.toUInt8) = 0x0D := rfl

/-- The array holds the numeral of `n` with two uppercase hexadecimal digits, and a NUL. -/
def Shows (text : CharArray 3) (n : Nat) : Prop :=
  ∃ digits, digits.length = 2 ∧ numeralValue digits = some n ∧ text.bytes = digits ++ [0]

theorem checksum_append (front back : List UInt8) :
    checksum (front ++ back) = (checksum front + checksum back) % 256 := by
  rw [checksum, byteSum_append, Nat.add_mod]
  rfl

/-- A text shows one number. -/
theorem Shows.unique {text : CharArray 3} {m n : Nat} (first : Shows text m) (second : Shows text n) :
    m = n := by
  obtain ⟨digits, _, value, bytes⟩ := first
  obtain ⟨digits', _, value', bytes'⟩ := second
  have same : digits = digits' := List.append_cancel_right (bytes.symm.trans bytes')
  rw [same, value'] at value
  exact (Option.some.inj value).symm

/-! ### The two functions -/

section Conversions

variable (impl : Implementation)

/-- Converted to `unsigned char`, a `char` is the byte that it is stored as. -/
theorem toUnsignedChar_charValue (b : UInt8) : toUnsignedChar (impl.charValue b) = b := by
  have bound := b.toNat_lt
  apply UInt8.toNat_inj.mp
  rw [toUnsignedChar, UInt8.ofInt, UInt8.toNat_ofNat', Implementation.charValue]
  split <;> omega

theorem toUnsignedInt_natCast (n : Nat) : impl.toUnsignedInt n = BitVec.ofNat impl.uintBits n :=
  BitVec.ofInt_natCast impl.uintBits n

theorem toNat_toUnsignedChar (n : Nat) : (toUnsignedChar n).toNat = n % 256 := by
  rw [toUnsignedChar, UInt8.ofInt, UInt8.toNat_ofNat']
  omega

/-- `unsigned int` has room for 256. -/
theorem toNat_toUnsignedInt {n : Nat} (small : n ≤ 256) : (impl.toUnsignedInt n).toNat = n := by
  have room : 2 ^ 16 ≤ 2 ^ impl.uintBits := Nat.pow_le_pow_right Nat.two_pos impl.wide
  rw [toUnsignedInt_natCast, BitVec.toNat_ofNat]
  apply Nat.mod_eq_of_lt
  omega

/-- 256 divides the word modulus. -/
theorem dvd_wordModulus : 256 ∣ 2 ^ impl.uintBits :=
  pow_dvd_pow 2 ((Nat.le_add_right 8 8).trans impl.wide)

end Conversions

section Loop

variable (impl : Implementation)

theorem readByte_append (front : List UInt8) (b : UInt8) (rest : List UInt8) :
    readByte (front ++ b :: rest) front.length = .ok b := by
  rw [readByte, List.getElem?_append_right (Nat.le_refl _), Nat.sub_self]
  rfl

/-- The remainder of the accumulator by 256 is that of the exact sum after every round, although the
    accumulator itself wraps. -/
theorem sumLoop_mod (front message rest : List UInt8) (sum : impl.UnsignedInt) :
    ∃ total, sumLoop impl (front ++ (message ++ rest)) message.length front.length sum = .ok total ∧
      total.toNat % 256 = (sum.toNat + byteSum message) % 256 := by
  induction message generalizing front sum with
  | nil => exact ⟨sum, rfl, rfl⟩
  | cons b message ih =>
      have added := toNat_add_mod (dvd_wordModulus impl) sum b.toNat
      rw [← toUnsignedInt_natCast] at added
      obtain ⟨total, looped, remainder⟩ := ih (front ++ [b]) (sum + impl.toUnsignedInt b.toNat)
      rw [List.append_assoc, List.length_append] at looped
      refine ⟨total, ?_, ?_⟩
      · rw [List.length_cons, sumLoop, List.cons_append, readByte_append, ok_bind,
          toUnsignedChar_charValue]
        exact looped
      · calc total.toNat % 256
            = ((sum + impl.toUnsignedInt b.toNat).toNat + byteSum message) % 256 := remainder
          _ = (sum.toNat + b.toNat + byteSum message) % 256 := Nat.ModEq.add_right _ added
          _ = (sum.toNat + byteSum (b :: message)) % 256 := by rw [Nat.add_assoc]; rfl

/-- `compute_checksum` returns the checksum of the message that `data` points to. -/
theorem computeChecksum_eq (message rest : List UInt8) :
    ∃ csum, computeChecksum impl (message ++ rest) message.length = .ok csum ∧
      csum.toNat = checksum message := by
  obtain ⟨total, looped, remainder⟩ := sumLoop_mod impl [] message rest (impl.toUnsignedInt 0)
  have zero : (impl.toUnsignedInt 0).toNat = 0 := toNat_toUnsignedInt impl (Nat.zero_le 256)
  have modulus : (impl.toUnsignedInt 256).toNat = 256 := toNat_toUnsignedInt impl (Nat.le_refl 256)
  rw [List.nil_append, List.length_nil] at looped
  refine ⟨toUnsignedChar (total % impl.toUnsignedInt 256).toNat, ?_, ?_⟩
  · rw [computeChecksum, looped, ok_bind]
  · calc (toUnsignedChar (total % impl.toUnsignedInt 256).toNat).toNat
        = (total % impl.toUnsignedInt 256).toNat % 256 := toNat_toUnsignedChar _
      _ = total.toNat % 256 % 256 := by rw [BitVec.toNat_umod, modulus]
      _ = total.toNat % 256 := Nat.mod_mod _ _
      _ = (0 + byteSum message) % 256 := by rw [remainder, zero]
      _ = checksum message := by rw [Nat.zero_add, checksum]

end Loop

section Digits

/-- The table has the digit of every value below 16. -/
theorem digitValue_hex (k : Fin 16) : digitValue (hex.get k.castSucc) = some (k : Nat) := by
  revert k
  decide

theorem arrayIndex_hex (k : Fin 16) : arrayIndex 17 ((k : Nat) : Int) = .ok k.castSucc :=
  arrayIndex_natCast k.castSucc

theorem exists_nibbles (csum : UInt8) :
    ∃ high low : Fin 16, csum.toNat >>> 4 &&& 0xF = high ∧ csum.toNat &&& 0xF = low ∧
      16 * (high : Nat) + low = csum.toNat := by
  have bound := csum.toNat_lt
  have highBound : csum.toNat / 16 < 16 := by omega
  have lowBound : csum.toNat % 16 < 16 := Nat.mod_lt _ (Nat.succ_pos 15)
  refine ⟨⟨csum.toNat / 16, highBound⟩, ⟨csum.toNat % 16, lowBound⟩, ?_, ?_, Nat.div_add_mod _ 16⟩
  · calc csum.toNat >>> 4 &&& 0xF
        = (csum.toNat >>> 4) % 2 ^ 4 := Nat.and_two_pow_sub_one_eq_mod _ 4
      _ = csum.toNat / 2 ^ 4 % 2 ^ 4 := by rw [Nat.shiftRight_eq_div_pow]
      _ = csum.toNat / 16 := Nat.mod_eq_of_lt highBound
  · exact Nat.and_two_pow_sub_one_eq_mod _ 4

/-- `format_checksum_hex` overwrites the whole array. -/
theorem formatChecksumHex_shows (csum : UInt8) (out : CharArray 3) :
    ∃ text, formatChecksumHex csum out = .ok text ∧ Shows text csum.toNat := by
  rcases out with ⟨bytes, length⟩
  obtain ⟨x, y, z, rfl⟩ := List.length_eq_three.mp length
  obtain ⟨high, low, highIndex, lowIndex, value⟩ := exists_nibbles csum
  have digits := numeralValue_pair (digitValue_hex high) (digitValue_hex low)
  rw [value] at digits
  refine
    ⟨{ bytes := [hex.get high.castSucc, hex.get low.castSucc, 0]
       length := rfl }, ?_, _, rfl, digits, rfl⟩
  rw [formatChecksumHex, highIndex, lowIndex, arrayIndex_hex, arrayIndex_hex]
  rfl

/-- The text of a message is that of its checksum. -/
theorem checksumText_shows (impl : Implementation) (message rest : List UInt8) (out : CharArray 3) :
    ∃ text, checksumText impl (message ++ rest) message.length out = .ok text ∧
      Shows text (checksum message) := by
  obtain ⟨csum, computed, value⟩ := computeChecksum_eq impl message rest
  obtain ⟨text, formatted, digits⟩ := formatChecksumHex_shows csum out
  rw [value] at digits
  refine ⟨text, ?_, digits⟩
  rw [checksumText, computed, ok_bind, formatted]

/-- On every implementation, whatever lies behind the message and was in the array before: the text of a
    message is the numeral of its byte sum modulo 256; the checksum of a concatenation is the sum of
    those of its parts modulo 256; and replacing one byte of a message changes the text. -/
theorem checksum_text_correct (impl : Implementation) :
    (∀ message rest out, ∃ text,
      checksumText impl (message ++ rest) message.length out = .ok text ∧
        Shows text (byteSum message % 256)) ∧
    (∀ front back rest rest' rest'', ∃ whole first second,
      computeChecksum impl (front ++ back ++ rest) (front ++ back).length = .ok whole ∧
        computeChecksum impl (front ++ rest') front.length = .ok first ∧
        computeChecksum impl (back ++ rest'') back.length = .ok second ∧
        whole.toNat = (first.toNat + second.toNat) % 256) ∧
    ∀ (message : List UInt8) (i : Fin message.length) (b : UInt8), b ≠ message.get i →
      ∀ rest rest' out out', ∃ text text',
        checksumText impl (message ++ rest) message.length out = .ok text ∧
          checksumText impl (message.set i b ++ rest') message.length out' = .ok text' ∧
          text ≠ text' := by
  refine ⟨?_, ?_, ?_⟩
  · intro message rest out
    exact checksumText_shows impl message rest out
  · intro front back rest rest' rest''
    obtain ⟨whole, computed, value⟩ := computeChecksum_eq impl (front ++ back) rest
    obtain ⟨first, computed', value'⟩ := computeChecksum_eq impl front rest'
    obtain ⟨second, computed'', value''⟩ := computeChecksum_eq impl back rest''
    refine ⟨whole, first, second, computed, computed', computed'', ?_⟩
    rw [value, value', value'', checksum_append]
  · intro message i b differs rest rest' out out'
    obtain ⟨text, returned, shown⟩ := checksumText_shows impl message rest out
    obtain ⟨text', returned', shown'⟩ := checksumText_shows impl (message.set i b) rest' out'
    rw [List.length_set] at returned'
    refine ⟨text, text', returned, returned', ?_⟩
    intro same
    rw [← same] at shown'
    exact byteSum_set_mod_ne message i differs (shown'.unique shown)

end Digits

end ProtocolFrame

end GenericSumType
