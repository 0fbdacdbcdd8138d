/-
Module: GenericSumType.Spec.FrameDescription
Layer: Spec
Purpose: What the terminal shows for a received line: the bytes of its description, and when the
  descriptions of two lines are the same.
Imports: GenericSumType.Examples.ProtocolFrameDemo, GenericSumType.Library.Printf,
  GenericSumType.Spec.FrameClassification
Trusted boundary: human-reviewed statement of purpose
Main exports: commandShown, argumentsShown, codeShown, description, ShownAlike
Open obligations: none
-/
import GenericSumType.Examples.ProtocolFrameDemo
import GenericSumType.Library.Printf
import GenericSumType.Spec.FrameClassification

namespace GenericSumType

namespace ProtocolFrame

open CString Printf

/-- The characters of a command that fit into `char[8]`, with blanks up to four columns. -/
def commandShown (s : List UInt8) : List UInt8 := padTo true 4 ((commandToken s).take 7)

/-- The characters of the arguments that fit into `char[64]`. -/
def argumentsShown (s : List UInt8) : List UInt8 := (argumentText s).take 63

/-- The number after `NG,T`. -/
def codeShown (s : List UInt8) : String := ngErrorName ((Scanf.scanInt 3 (s.drop 4)).getD 0)

/-- What is printed for a line with text `s`. -/
def description (s : List UInt8) : List UInt8 :=
  if literal ['W', ','] <+: s then
    utf8 "[FRAME] Write要求  command=" ++
      (commandShown s ++ (utf8 " args=\"" ++ (argumentsShown s ++ utf8 "\"\n")))
  else if literal ['R', ','] <+: s then
    utf8 "[FRAME] Read要求   command=" ++
      (commandShown s ++ (utf8 " args=\"" ++ (argumentsShown s ++ utf8 "\"\n")))
  else if literal ['N', 'G', ',', 'T'] <+: s then
    utf8 "[FRAME] NG応答     " ++ (utf8 (codeShown s) ++ utf8 "\n")
  else
    utf8 "[FRAME] OK応答     payload=\"" ++ (s.take 63 ++ utf8 "\"\n")

/-- Lines of one kind that give the same to the terminal. -/
def ShownAlike (s t : List UInt8) : Fin Frame.size → Prop
  | ⟨0, _⟩ | ⟨1, _⟩ => commandShown s = commandShown t ∧ argumentsShown s = argumentsShown t
  | ⟨2, _⟩ => s.take 63 = t.take 63
  | ⟨3, _⟩ => codeShown s = codeShown t

/-- A received line: a string, without the delimiter that ended it. -/
structure ReceivedLine (line : List UInt8) : Prop where
  terminated : 0 ∈ line
  delimited : newline ∉ text line

/-- Two received lines of one kind that give the same to the terminal. -/
def ToldAlike (line line' : List UInt8) : Prop :=
  kindOf (text line) = kindOf (text line') ∧ ShownAlike (text line) (text line') (kindOf (text line))

end ProtocolFrame

end GenericSumType
