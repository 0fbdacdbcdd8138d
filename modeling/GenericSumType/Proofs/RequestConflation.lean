/-
Module: GenericSumType.Proofs.RequestConflation
Layer: Proofs
Purpose: Which request lines `classify_line` tells apart: exactly those whose tokens already differ in the
  part that the arrays of a frame have room for.
Imports: GenericSumType.Proofs.FrameClassification
Trusted boundary: none
Main exports: encode_injective, classify_request, classify_eq_iff, requests_distinguished_iff
Open obligations: none
-/
import GenericSumType.Proofs.FrameClassification

namespace GenericSumType

/-- Raw objects that represent coproduct values represent different ones differently. -/
theorem SumInstance.encode_injective {B : Type} (U : SumInstance B) (M : TypeModel B) :
    Function.Injective (U.encode M) := by
  intro c d same
  have tags : ((c.1 : Nat) : Int) = ((d.1 : Nat) : Int) := congrArg RawSum.tag same
  have positions : c.1 = d.1 := Fin.ext (Int.ofNat.inj tags)
  rcases c with ⟨i, x⟩
  rcases d with ⟨j, y⟩
  cases positions
  have contents : (⟨U.payloadType M i, x⟩ : M.AnyPayload) = ⟨U.payloadType M i, y⟩ :=
    congrArg (fun r => r.as.content) same
  cases contents
  rfl

namespace ProtocolFrame

open CString

theorem Request.frame_inj (r : Request) {command command' : CharArray 8} {args args' : CharArray 64} :
    r.frame command args = r.frame command' args' ↔ command = command' ∧ args = args' := by
  constructor
  · intro same
    cases r with
    | write =>
        cases same
        exact ⟨rfl, rfl⟩
    | read =>
        cases same
        exact ⟨rfl, rfl⟩
  · rintro ⟨rfl, rfl⟩
    rfl

section Requests

variable {line line' : List UInt8} {r : Request}

/-- The two branches for requests do the same with what follows their prefix. -/
theorem classify_request (terminated : 0 ∈ line) (starts : r.start <+: text line) :
    ∃ command args, classifyLine line = .ok (.ok (Frame.encode model (r.frame command args))) ∧
      RequestParts ((text line).drop 2) command args := by
  obtain ⟨_, _, _, compared⟩ := exists_compared terminated
  cases r with
  | write =>
      obtain ⟨f, returned, parts⟩ := classify_write terminated compared starts
      exact ⟨f.command, f.args, returned, parts⟩
  | read =>
      have notWrite : ¬literal ['W', ','] <+: text line := by
        intro write
        have same := List.prefix_of_prefix_length_le write starts (le_refl 2)
        revert same
        decide
      obtain ⟨f, returned, parts⟩ := classify_read terminated compared notWrite starts
      exact ⟨f.command, f.args, returned, parts⟩

theorem zero_notMem_drop_text {n : Nat} : 0 ∉ (text line).drop n :=
  fun member => zero_notMem_text (List.mem_of_mem_drop member)

theorem zero_notMem_commandToken : 0 ∉ commandToken (text line) :=
  fun member => zero_notMem_drop_text (before_isPrefix.subset member)

theorem zero_notMem_argumentText : 0 ∉ argumentText (text line) :=
  fun member =>
    zero_notMem_drop_text ((List.dropWhile_suffix _).subset (List.mem_of_mem_drop member))

/-- An array of `size` bytes keeps the first `size - 1` characters of a text, and nothing else of it. -/
theorem stored_eq_iff {size : Nat} (nonempty : 0 < size) {a b : CharArray size} {s t : List UInt8}
    (noNul : 0 ∉ s) (noNul' : 0 ∉ t) (stored : a.bytes = padded size (s.take (size - 1)))
    (stored' : b.bytes = padded size (t.take (size - 1))) :
    a = b ↔ s.take (size - 1) = t.take (size - 1) := by
  have room (u : List UInt8) : (u.take (size - 1)).length < size :=
    (List.length_take_le _ _).trans_lt (Nat.sub_one_lt_of_lt nonempty)
  calc a = b
      ↔ a.bytes = b.bytes := CharArray.ext_iff
    _ ↔ padded size (s.take (size - 1)) = padded size (t.take (size - 1)) := by
        rw [stored, stored']
    _ ↔ s.take (size - 1) = t.take (size - 1) :=
        padded_inj (fun member => noNul (List.mem_of_mem_take member)) (room s)
          (fun member => noNul' (List.mem_of_mem_take member)) (room t)

/-- Two requests of one kind give the same frame when their tokens agree as far as the arrays reach. -/
theorem classify_eq_iff (terminated : 0 ∈ line) (terminated' : 0 ∈ line')
    (starts : r.start <+: text line) (starts' : r.start <+: text line') :
    classifyLine line = classifyLine line' ↔
      (commandToken (text line)).take 7 = (commandToken (text line')).take 7 ∧
        (argumentText (text line)).take 63 = (argumentText (text line')).take 63 := by
  obtain ⟨command, args, returned, parts⟩ := classify_request terminated starts
  obtain ⟨command', args', returned', parts'⟩ := classify_request terminated' starts'
  have commands := stored_eq_iff (Nat.zero_lt_succ 7) zero_notMem_commandToken zero_notMem_commandToken
    parts.1 parts'.1
  have arguments := stored_eq_iff (Nat.zero_lt_succ 63) zero_notMem_argumentText
    zero_notMem_argumentText parts.2 parts'.2
  rw [returned, returned', Except.ok.injEq, Except.ok.injEq, (Frame.encode_injective model).eq_iff,
    r.frame_inj, commands, arguments]

/-- Requests of one kind are told apart exactly when their commands differ in the first 7 characters or
    their arguments differ in the first 63. -/
theorem requests_distinguished_iff (r : Request) {line line' : List UInt8} (terminated : 0 ∈ line)
    (terminated' : 0 ∈ line') (starts : r.start <+: text line) (starts' : r.start <+: text line') :
    classifyLine line ≠ classifyLine line' ↔
      (commandToken (text line)).take 7 ≠ (commandToken (text line')).take 7 ∨
        (argumentText (text line)).take 63 ≠ (argumentText (text line')).take 63 := by
  rw [Ne, classify_eq_iff terminated terminated' starts starts', not_and_or]

end Requests

section Lines

/-- The line `W,SMT,1`. -/
def settingOne : List UInt8 := literal ['W', ',', 'S', 'M', 'T', ',', '1'] ++ [0]

/-- The line `W,SMT,2`. -/
def settingTwo : List UInt8 := literal ['W', ',', 'S', 'M', 'T', ',', '2'] ++ [0]

theorem settings_distinguished : classifyLine settingOne ≠ classifyLine settingTwo := by
  apply (@requests_distinguished_iff .write settingOne settingTwo (by decide) (by decide) (by decide)
    (by decide)).mpr
  decide

/-- The line `W,ABCDEFGH`. -/
def longCommand : List UInt8 := literal ['W', ',', 'A', 'B', 'C', 'D', 'E', 'F', 'G', 'H'] ++ [0]

/-- The line `W,ABCDEFGI`. -/
def otherLongCommand : List UInt8 :=
  literal ['W', ',', 'A', 'B', 'C', 'D', 'E', 'F', 'G', 'I'] ++ [0]

/-- Two write requests with different commands that give the same frame. -/
theorem longCommands_conflated :
    Request.write.start <+: text longCommand ∧ Request.write.start <+: text otherLongCommand ∧
      commandToken (text longCommand) ≠ commandToken (text otherLongCommand) ∧
      ∃ frame, classifyLine longCommand = .ok (.ok frame) ∧
        classifyLine otherLongCommand = .ok (.ok frame) := by
  have starts : Request.write.start <+: text longCommand := by decide
  have starts' : Request.write.start <+: text otherLongCommand := by decide
  have same : classifyLine longCommand = classifyLine otherLongCommand := by
    apply (classify_eq_iff (by decide) (by decide) starts starts').mpr
    decide
  obtain ⟨command, args, returned, _⟩ := classify_request (by decide) starts
  exact ⟨starts, starts', by decide, _, returned, same ▸ returned⟩

end Lines

end ProtocolFrame

end GenericSumType
