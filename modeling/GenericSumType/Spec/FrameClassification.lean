/-
Module: GenericSumType.Spec.FrameClassification
Layer: Spec
Purpose: What the classification of a line is for: the kind of frame that its prefix announces, and the
  contents that the rest of the line gives to the frame.
Imports: GenericSumType.Examples.ProtocolFrame, GenericSumType.Spec.Coproduct
Trusted boundary: human-reviewed statement of purpose
Main exports: FrameValue, kindOf, ScannedCode, Contents, WellFormed, Request, commandToken,
  argumentText
Open obligations: none
-/
import GenericSumType.Examples.ProtocolFrame
import GenericSumType.Spec.Coproduct

namespace GenericSumType

namespace ProtocolFrame

open CString

/-- A `Frame` as a value of the coproduct of its payloads. -/
abbrev FrameValue : Type := Coproduct (Frame.Payload model)

def writeKind : Fin Frame.size := ⟨0, Nat.zero_lt_succ 3⟩
def readKind : Fin Frame.size := ⟨1, Nat.succ_lt_succ (Nat.zero_lt_succ 2)⟩
def okKind : Fin Frame.size := ⟨2, Nat.lt_succ_of_le (Nat.le_succ 2)⟩
def ngKind : Fin Frame.size := ⟨3, Nat.lt_succ_self 3⟩

/-- The kind of frame that the start of a line announces. -/
def kindOf (s : List UInt8) : Fin Frame.size :=
  if literal ['W', ','] <+: s then writeKind
  else if literal ['R', ','] <+: s then readKind
  else if literal ['N', 'G', ',', 'T'] <+: s then ngKind
  else okKind

/-- The number at the start of a text, 0 when there is none. -/
def ScannedCode (s : List UInt8) (code : Int) : Prop :=
  Scanf.Numeral 3 s code ∨ code = 0 ∧ ∀ x, ¬Scanf.Numeral 3 s x

/-- The two parts of a request, cut where its arrays end and followed by NUL bytes only. -/
def RequestParts (s : List UInt8) (command : CharArray 8) (args : CharArray 64) : Prop :=
  command.bytes = padded 8 ((before comma s).take 7) ∧ args.bytes = padded 64 ((after comma s).take 63)

/-- The command token of a request with text `s`: what stands before the first comma after the prefix. -/
def commandToken (s : List UInt8) : List UInt8 := before comma (s.drop 2)

/-- What stands after that comma, nothing when there is none. -/
def argumentText (s : List UInt8) : List UInt8 := after comma (s.drop 2)

/-- The two kinds of requests. -/
inductive Request where
  | write
  | read
deriving DecidableEq, Repr

namespace Request

/-- How a line of the kind starts. -/
def start : Request → List UInt8
  | write => literal ['W', ',']
  | read => literal ['R', ',']

def frame (command : CharArray 8) (args : CharArray 64) : Request → FrameValue
  | write => ⟨writeKind, ({ command := command, args := args } : FrameWriteRequest)⟩
  | read => ⟨readKind, ({ command := command, args := args } : FrameReadRequest)⟩

end Request

/-- What a frame of each kind holds for a line with text `s`. -/
def Contents (s : List UInt8) : (i : Fin Frame.size) → Frame.Payload model i → Prop
  | ⟨0, _⟩ => fun (f : FrameWriteRequest) => RequestParts (s.drop 2) f.command f.args
  | ⟨1, _⟩ => fun (f : FrameReadRequest) => RequestParts (s.drop 2) f.command f.args
  | ⟨2, _⟩ => fun (f : FrameOkReply) => f.payload.bytes = padded 64 (s.take 63)
  | ⟨3, _⟩ => fun (f : FrameNgReply) => ScannedCode (s.drop 4) f.errorCode

/-- The last byte of an array is NUL. -/
def Ends {n : Nat} (a : CharArray n) : Prop := a.bytes.getLast? = some 0

/-- Every array ends with a NUL, and an error code is a number of at most three characters. -/
def WellFormed : (i : Fin Frame.size) → Frame.Payload model i → Prop
  | ⟨0, _⟩ => fun (f : FrameWriteRequest) => Ends f.command ∧ Ends f.args
  | ⟨1, _⟩ => fun (f : FrameReadRequest) => Ends f.command ∧ Ends f.args
  | ⟨2, _⟩ => fun (f : FrameOkReply) => Ends f.payload
  | ⟨3, _⟩ => fun (f : FrameNgReply) => -99 ≤ f.errorCode ∧ f.errorCode ≤ 999

end ProtocolFrame

end GenericSumType
