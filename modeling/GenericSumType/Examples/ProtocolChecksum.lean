/-
Module: GenericSumType.Examples.ProtocolChecksum
Layer: Examples
Purpose: The checksum of `examples/protocol_frame.h`: the sum of the bytes of a message and its two
  digits.  What C leaves to the implementation is a parameter: the width of `unsigned int` and whether
  `char` is signed.
Imports: GenericSumType.Library.CString
Trusted boundary: human-reviewed transcription of the header
Main exports: Implementation, computeChecksum, formatChecksumHex, checksumText
Open obligations: none
-/
import GenericSumType.Library.CString

namespace GenericSumType

namespace ProtocolFrame

open CString

/-- What the two functions depend on; `unsigned int` has at least 16 bits (C11 5.2.4.2.1). -/
structure Implementation where
  uintBits : Nat
  charSigned : Bool
  wide : 16 ≤ uintBits

namespace Implementation

/-- The value of a `char` that is stored as the byte `b`. -/
def charValue (impl : Implementation) (b : UInt8) : Int :=
  if impl.charSigned ∧ 128 ≤ b.toNat then b.toNat - 256 else b.toNat

/-- The values of `unsigned int`. -/
abbrev UnsignedInt (impl : Implementation) : Type := BitVec impl.uintBits

/-- Conversion to `unsigned int` (C11 6.3.1.3p2). -/
def toUnsignedInt (impl : Implementation) (x : Int) : impl.UnsignedInt := BitVec.ofInt _ x

end Implementation

/-- `(unsigned char)x` -/
def toUnsignedChar (x : Int) : UInt8 := UInt8.ofInt x

section Checksum

variable (impl : Implementation)

/-- `for (...; i < len; ++i) { sum += (unsigned char)data[i]; }` with `remaining` rounds left. -/
def sumLoop (data : List UInt8) : (remaining i : Nat) → impl.UnsignedInt →
    Except OutOfBounds impl.UnsignedInt
  | 0, _, sum => .ok sum
  | remaining + 1, i, sum => do
      let c ← readByte data i
      let addend := toUnsignedChar (impl.charValue c)
      sumLoop data remaining (i + 1) (sum + impl.toUnsignedInt addend.toNat)

def computeChecksum (data : List UInt8) (len : Nat) : Except OutOfBounds UInt8 := do
  let sum ← sumLoop impl data len 0 (impl.toUnsignedInt 0)
  .ok (toUnsignedChar (sum % impl.toUnsignedInt 256).toNat)

/-- `static const char hex[] = "0123456789ABCDEF";` -/
def hex : CharArray 17 where
  bytes := "0123456789ABCDEF".toList.map Char.toUInt8 ++ [0]
  length := rfl

def formatChecksumHex (csum : UInt8) (out : CharArray 3) : Except OutOfBounds (CharArray 3) := do
  let high ← arrayIndex 17 ((csum.toNat >>> 4 &&& 0xF : Nat) : Int)
  let out ← out.set 0 (hex.get high)
  let low ← arrayIndex 17 ((csum.toNat &&& 0xF : Nat) : Int)
  let out ← out.set 1 (hex.get low)
  out.set 2 0

/-- `format_checksum_hex(compute_checksum(data, len), out);` -/
def checksumText (data : List UInt8) (len : Nat) (out : CharArray 3) :
    Except OutOfBounds (CharArray 3) := do
  let csum ← computeChecksum impl data len
  formatChecksumHex csum out

end Checksum

end ProtocolFrame

end GenericSumType
