/-
Module: GenericSumType.Proofs.FrameClassification
Layer: Proofs
Purpose: `classify_line` returns the frame that its line describes, for every terminated line.
Imports: GenericSumType.Spec.FrameClassification, GenericSumType.Proofs.Alignment
Trusted boundary: none
Main exports: requestFields_eq, scanCode_eq, contents_wellFormed, classify_line_correct
Open obligations: none
-/
import GenericSumType.Spec.FrameClassification
import GenericSumType.Proofs.Alignment

namespace GenericSumType

namespace ProtocolFrame

open CString

section Parts

variable {line rest : List UInt8}

/-- Both arrays are filled within their bounds. -/
theorem requestFields_eq (terminated : 0 ∈ rest) :
    ∃ command args, requestFields rest = .ok (command, args) ∧
      RequestParts (text rest) command args := by
  have found := @strchr_eq rest comma (by decide) terminated
  obtain ⟨command, copied, commandBytes⟩ :=
    @memcpy_clamped 8 (Nat.zero_lt_succ 7) rest _ (before_isPrefix.trans text_isPrefix)
  by_cases member : comma ∈ text rest
  · have split := before_append_after member
    have inside : (before comma (text rest)).length + 1 ≤ (text rest).length := by
      have length := congrArg List.length split
      rw [List.length_append, List.length_cons] at length
      omega
    obtain ⟨tail, advanced, tailTerminated, tailText⟩ := advance_text terminated inside
    have remaining : text tail = after comma (text rest) :=
      calc text tail
          = (text rest).drop ((before comma (text rest)).length + 1) := tailText
        _ = (before comma (text rest) ++ comma :: after comma (text rest)).drop
              ((before comma (text rest)).length + 1) := congrArg (List.drop _) split
        _ = after comma (text rest) := by rw [List.drop_length_add_append]; rfl
    obtain ⟨args, copiedArgs, argsBytes⟩ := @memcpy_clamped 64 (Nat.zero_lt_succ 63) tail _ text_isPrefix
    rw [remaining] at argsBytes
    rw [if_pos member] at found
    refine ⟨command, args, ?_, commandBytes, argsBytes⟩
    rw [requestFields, found, ok_bind]
    simp only [ok_bind, copied, advanced, strlen_eq tailTerminated, copiedArgs]
  · have whole := before_of_notMem member
    rw [if_neg member] at found
    rw [whole] at copied
    refine ⟨command, .zero 64, ?_, commandBytes, ?_⟩
    · rw [requestFields, found, ok_bind]
      simp only [ok_bind, strlen_eq terminated, copied]
    · rw [after_of_notMem member]
      rfl

theorem scanCode_eq (terminated : 0 ∈ rest) :
    ∃ code, scanCode rest = .ok code ∧ ScannedCode (text rest) code := by
  rw [scanCode, readString_eq terminated, ok_bind]
  cases scanned : Scanf.scanInt 3 (text rest) with
  | none =>
      refine ⟨0, rfl, .inr ⟨rfl, ?_⟩⟩
      intro x numeral
      rw [Scanf.scanInt_eq_some_iff.mpr numeral] at scanned
      cases scanned
  | some x => exact ⟨x, rfl, .inl (Scanf.scanInt_eq_some_iff.mp scanned)⟩

/-- A comparison with a string constant of `n` characters finds out whether the line starts with it. -/
theorem strncmp_chars (chars : List Char) (n : Nat) (length : chars.length = n)
    (noNul : 0 ∉ literal chars) (terminated : 0 ∈ line) :
    ∃ r, strncmp line (literal chars ++ [0]) n = .ok r ∧ (r = 0 ↔ literal chars <+: text line) := by
  subst length
  rw [← List.length_map Char.toUInt8]
  exact strncmp_literal noNul terminated

/-- Past its first `n` characters the string of a line goes on. -/
theorem advance_chars (chars : List Char) (n : Nat) (length : chars.length = n)
    (terminated : 0 ∈ line) (starts : literal chars <+: text line) :
    ∃ rest, advance line n = .ok rest ∧ 0 ∈ rest ∧ text rest = (text line).drop n := by
  subst length
  have inside := starts.length_le
  rw [literal, List.length_map] at inside
  exact advance_text terminated inside

end Parts

section Frames

/-- What the contents of a frame say about its arrays and its number. -/
theorem contents_wellFormed {s : List UInt8} (frame : FrameValue) (contents : Contents s frame.1 frame.2) :
    WellFormed frame.1 frame.2 := by
  have parts {t : List UInt8} {command : CharArray 8} {args : CharArray 64}
      (parts : RequestParts t command args) : Ends command ∧ Ends args := by
    constructor
    · rw [Ends, parts.1]
      exact getLast?_padded (Nat.lt_succ_of_le (List.length_take_le _ _))
    · rw [Ends, parts.2]
      exact getLast?_padded (Nat.lt_succ_of_le (List.length_take_le _ _))
  match frame, contents with
  | ⟨⟨0, _⟩, f⟩, contents => exact parts contents
  | ⟨⟨1, _⟩, f⟩, contents => exact parts contents
  | ⟨⟨2, _⟩, f⟩, contents =>
      have bytes : (show FrameOkReply from f).payload.bytes = padded 64 (s.take 63) := contents
      change (show FrameOkReply from f).payload.bytes.getLast? = some 0
      rw [bytes]
      exact getLast?_padded (Nat.lt_succ_of_le (List.length_take_le _ _))
  | ⟨⟨3, _⟩, f⟩, contents =>
      have scanned : ScannedCode (s.drop 4) (show FrameNgReply from f).errorCode := contents
      change -99 ≤ (show FrameNgReply from f).errorCode ∧ (show FrameNgReply from f).errorCode ≤ 999
      rcases scanned with numeral | ⟨zero, _⟩
      · have bounds := numeral.bounds
        omega
      · omega

theorem newWriteRequest_eq (f : FrameWriteRequest) :
    newWriteRequest f = .ok (Frame.encode model ⟨writeKind, f⟩) :=
  Frame.callCtor_encode model writeKind f

theorem newReadRequest_eq (f : FrameReadRequest) :
    newReadRequest f = .ok (Frame.encode model ⟨readKind, f⟩) :=
  Frame.callCtor_encode model readKind f

theorem newOkReply_eq (f : FrameOkReply) :
    newOkReply f = .ok (Frame.encode model ⟨okKind, f⟩) :=
  Frame.callCtor_encode model okKind f

theorem newNgReply_eq (f : FrameNgReply) :
    newNgReply f = .ok (Frame.encode model ⟨ngKind, f⟩) :=
  Frame.callCtor_encode model ngKind f

variable {line : List UInt8}

/-- What the three comparisons of a line return. -/
structure Compared (line : List UInt8) (write read ng : Int) : Prop where
  writeReturned : strncmp line (literal ['W', ','] ++ [0]) 2 = .ok write
  readReturned : strncmp line (literal ['R', ','] ++ [0]) 2 = .ok read
  ngReturned : strncmp line (literal ['N', 'G', ',', 'T'] ++ [0]) 4 = .ok ng
  writeIff : write = 0 ↔ literal ['W', ','] <+: text line
  readIff : read = 0 ↔ literal ['R', ','] <+: text line
  ngIff : ng = 0 ↔ literal ['N', 'G', ',', 'T'] <+: text line

theorem exists_compared (terminated : 0 ∈ line) : ∃ write read ng, Compared line write read ng := by
  obtain ⟨write, writeReturned, writeIff⟩ := strncmp_chars ['W', ','] 2 rfl (by decide) terminated
  obtain ⟨read, readReturned, readIff⟩ := strncmp_chars ['R', ','] 2 rfl (by decide) terminated
  obtain ⟨ng, ngReturned, ngIff⟩ := strncmp_chars ['N', 'G', ',', 'T'] 4 rfl (by decide) terminated
  exact
    ⟨write, read, ng,
      { writeReturned := writeReturned
        readReturned := readReturned
        ngReturned := ngReturned
        writeIff := writeIff
        readIff := readIff
        ngIff := ngIff }⟩

variable {write read ng : Int}

theorem classify_write (terminated : 0 ∈ line) (compared : Compared line write read ng)
    (starts : literal ['W', ','] <+: text line) :
    ∃ f : FrameWriteRequest, classifyLine line = .ok (.ok (Frame.encode model ⟨writeKind, f⟩)) ∧
      RequestParts ((text line).drop 2) f.command f.args := by
  obtain ⟨rest, advanced, restTerminated, restText⟩ := advance_chars ['W', ','] 2 rfl terminated starts
  obtain ⟨command, args, fields, parts⟩ := requestFields_eq restTerminated
  refine ⟨{ command := command, args := args }, ?_, restText ▸ parts⟩
  rw [classifyLine, compared.writeReturned, ok_bind, if_pos (compared.writeIff.mpr starts)]
  rw [advanced, ok_bind, fields, ok_bind]
  exact congrArg Except.ok (newWriteRequest_eq _)

theorem classify_read (terminated : 0 ∈ line) (compared : Compared line write read ng)
    (notWrite : ¬literal ['W', ','] <+: text line) (starts : literal ['R', ','] <+: text line) :
    ∃ f : FrameReadRequest, classifyLine line = .ok (.ok (Frame.encode model ⟨readKind, f⟩)) ∧
      RequestParts ((text line).drop 2) f.command f.args := by
  obtain ⟨rest, advanced, restTerminated, restText⟩ := advance_chars ['R', ','] 2 rfl terminated starts
  obtain ⟨command, args, fields, parts⟩ := requestFields_eq restTerminated
  refine ⟨{ command := command, args := args }, ?_, restText ▸ parts⟩
  rw [classifyLine, compared.writeReturned, ok_bind, if_neg (compared.writeIff.not.mpr notWrite)]
  rw [compared.readReturned, ok_bind, if_pos (compared.readIff.mpr starts)]
  rw [advanced, ok_bind, fields, ok_bind]
  exact congrArg Except.ok (newReadRequest_eq _)

theorem classify_ng (terminated : 0 ∈ line) (compared : Compared line write read ng)
    (notWrite : ¬literal ['W', ','] <+: text line) (notRead : ¬literal ['R', ','] <+: text line)
    (starts : literal ['N', 'G', ',', 'T'] <+: text line) :
    ∃ f : FrameNgReply, classifyLine line = .ok (.ok (Frame.encode model ⟨ngKind, f⟩)) ∧
      ScannedCode ((text line).drop 4) f.errorCode := by
  obtain ⟨rest, advanced, restTerminated, restText⟩ :=
    advance_chars ['N', 'G', ',', 'T'] 4 rfl terminated starts
  obtain ⟨code, scan, scanned⟩ := scanCode_eq restTerminated
  refine ⟨{ errorCode := code }, ?_, restText ▸ scanned⟩
  rw [classifyLine, compared.writeReturned, ok_bind, if_neg (compared.writeIff.not.mpr notWrite)]
  rw [compared.readReturned, ok_bind, if_neg (compared.readIff.not.mpr notRead)]
  rw [compared.ngReturned, ok_bind, if_pos (compared.ngIff.mpr starts)]
  rw [advanced, ok_bind, scan, ok_bind]
  exact congrArg Except.ok (newNgReply_eq _)

theorem classify_ok (terminated : 0 ∈ line) (compared : Compared line write read ng)
    (notWrite : ¬literal ['W', ','] <+: text line) (notRead : ¬literal ['R', ','] <+: text line)
    (notNg : ¬literal ['N', 'G', ',', 'T'] <+: text line) :
    ∃ f : FrameOkReply, classifyLine line = .ok (.ok (Frame.encode model ⟨okKind, f⟩)) ∧
      f.payload.bytes = padded 64 ((text line).take 63) := by
  obtain ⟨payload, copied, bytes⟩ := @memcpy_clamped 64 (Nat.zero_lt_succ 63) line _ text_isPrefix
  refine ⟨{ payload := payload }, ?_, bytes⟩
  rw [classifyLine, compared.writeReturned, ok_bind, if_neg (compared.writeIff.not.mpr notWrite)]
  rw [compared.readReturned, ok_bind, if_neg (compared.readIff.not.mpr notRead)]
  rw [compared.ngReturned, ok_bind, if_neg (compared.ngIff.not.mpr notNg)]
  rw [strlen_eq terminated, ok_bind, copied, ok_bind]
  exact congrArg Except.ok (newOkReply_eq _)

/-- `classify_line` returns, for every terminated line, the frame of the kind that its start announces
    with the contents that the rest of the line gives.  No access leaves the line or an array. -/
theorem classify_line_correct {line : List UInt8} (terminated : 0 ∈ line) :
    ∃ frame : FrameValue, classifyLine line = .ok (.ok (Frame.encode model frame)) ∧
      frame.1 = kindOf (text line) ∧ Contents (text line) frame.1 frame.2 ∧
      WellFormed frame.1 frame.2 := by
  have complete (frame : FrameValue)
      (returned : classifyLine line = .ok (.ok (Frame.encode model frame)))
      (kind : frame.1 = kindOf (text line)) (contents : Contents (text line) frame.1 frame.2) :
      ∃ frame : FrameValue, classifyLine line = .ok (.ok (Frame.encode model frame)) ∧
        frame.1 = kindOf (text line) ∧ Contents (text line) frame.1 frame.2 ∧
        WellFormed frame.1 frame.2 :=
    ⟨frame, returned, kind, contents, contents_wellFormed frame contents⟩
  obtain ⟨_, _, _, compared⟩ := exists_compared terminated
  by_cases write : literal ['W', ','] <+: text line
  · obtain ⟨f, returned, contents⟩ := classify_write terminated compared write
    apply complete ⟨writeKind, f⟩ returned _ contents
    rw [kindOf, if_pos write]
  · by_cases read : literal ['R', ','] <+: text line
    · obtain ⟨f, returned, contents⟩ := classify_read terminated compared write read
      apply complete ⟨readKind, f⟩ returned _ contents
      rw [kindOf, if_neg write, if_pos read]
    · by_cases ng : literal ['N', 'G', ',', 'T'] <+: text line
      · obtain ⟨f, returned, contents⟩ := classify_ng terminated compared write read ng
        apply complete ⟨ngKind, f⟩ returned _ contents
        rw [kindOf, if_neg write, if_neg read, if_pos ng]
      · obtain ⟨f, returned, contents⟩ := classify_ok terminated compared write read ng
        apply complete ⟨okKind, f⟩ returned _ contents
        rw [kindOf, if_neg write, if_neg read, if_neg ng]

/-- The line `NG,T-999`. -/
def ngLine : List UInt8 := literal ['N', 'G', ',', 'T', '-', '9', '9', '9'] ++ [0]

theorem ngLine_classified :
    ∃ frame : FrameValue, classifyLine ngLine = .ok (.ok (Frame.encode model frame)) ∧
      frame.1 = ngKind ∧ Contents (text ngLine) frame.1 frame.2 ∧ WellFormed frame.1 frame.2 := by
  obtain ⟨frame, returned, kind, contents, wellFormed⟩ :=
    @classify_line_correct ngLine (by decide)
  have announced : kindOf (text ngLine) = ngKind := by decide
  exact ⟨frame, returned, kind.trans announced, contents, wellFormed⟩

end Frames

end ProtocolFrame

end GenericSumType
