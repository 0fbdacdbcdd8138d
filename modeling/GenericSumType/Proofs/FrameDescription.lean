/-
Module: GenericSumType.Proofs.FrameDescription
Layer: Proofs
Purpose: The loop of the frame demo prints the description of every received line, and what its output
  tells about the lines: their number, their kinds, and the contents that the columns and the arrays leave
  of them.
Imports: GenericSumType.Proofs.FrameClassification, GenericSumType.Spec.FrameDescription
Trusted boundary: none
Main exports: receiveLine_eq, received_lines_described, kind_of_description, description_eq_iff,
  description_stopped, output_eq_iff
Open obligations: none
-/
import GenericSumType.Proofs.FrameClassification
import GenericSumType.Spec.FrameDescription

namespace GenericSumType

namespace ProtocolFrame

open CString Printf

section Formats

theorem pieces_write : pieces "[FRAME] Write要求  command=%-4s args=\"%s\"\n" =
    some [.text (utf8 "[FRAME] Write要求  command="), .s true 4, .text (utf8 " args=\""), .s false 0,
      .text (utf8 "\"\n")] := by
  decide +kernel

theorem pieces_read : pieces "[FRAME] Read要求   command=%-4s args=\"%s\"\n" =
    some [.text (utf8 "[FRAME] Read要求   command="), .s true 4, .text (utf8 " args=\""), .s false 0,
      .text (utf8 "\"\n")] := by
  decide +kernel

theorem pieces_ok : pieces "[FRAME] OK応答     payload=\"%s\"\n" =
    some [.text (utf8 "[FRAME] OK応答     payload=\""), .s false 0, .text (utf8 "\"\n")] := by
  decide +kernel

theorem pieces_ng : pieces "[FRAME] NG応答     %s\n" =
    some [.text (utf8 "[FRAME] NG応答     "), .s false 0, .text (utf8 "\n")] := by
  decide +kernel

end Formats

section Describe

variable {s : List UInt8}

/-- A describe function prints the description of a text and returns 0. -/
def Describes (described : Described) (s : List UInt8) : Prop :=
  ∃ line, described = .ok (line, 0) ∧ render line = some (description s)

theorem readString_cut {n : Nat} {a : CharArray (n + 1)} {s : List UInt8}
    (bytes : a.bytes = padded (n + 1) (s.take n)) (noNul : 0 ∉ s) : readString a.bytes = .ok (s.take n) := by
  rw [bytes]
  exact readString_padded (fun member => noNul (List.mem_of_mem_take member))
    (Nat.lt_succ_of_le (List.length_take_le _ _))

theorem readString_command {command : CharArray 8} {args : CharArray 64} (noNul : 0 ∉ s)
    (parts : RequestParts (s.drop 2) command args) :
    readString command.bytes = .ok ((commandToken s).take 7) := by
  apply readString_cut parts.1
  intro member
  exact noNul (List.mem_of_mem_drop (before_isPrefix.subset member))

theorem after_isSuffix {c : UInt8} {s : List UInt8} : after c s <:+ s :=
  (List.drop_suffix 1 _).trans (List.dropWhile_suffix _)

theorem readString_args {command : CharArray 8} {args : CharArray 64} (noNul : 0 ∉ s)
    (parts : RequestParts (s.drop 2) command args) :
    readString args.bytes = .ok (argumentsShown s) := by
  apply readString_cut parts.2
  intro member
  exact noNul (List.mem_of_mem_drop (after_isSuffix.subset member))

theorem describeWrite_describes {f : FrameWriteRequest} (noNul : 0 ∉ s)
    (starts : literal ['W', ','] <+: s) (parts : RequestParts (s.drop 2) f.command f.args) :
    Describes (describeWrite f) s := by
  have printed : describeWrite f =
      .ok (⟨"[FRAME] Write要求  command=%-4s args=\"%s\"\n",
        [.s ((commandToken s).take 7), .s (argumentsShown s)]⟩, 0) := by
    rw [describeWrite, readString_command noNul parts, ok_bind, readString_args noNul parts, ok_bind]
  refine ⟨_, printed, ?_⟩
  rw [render, pieces_write, description, if_pos starts]
  simp [fill, characters, commandShown, padTo]

theorem describeRead_describes {f : FrameReadRequest} (noNul : 0 ∉ s)
    (notWrite : ¬literal ['W', ','] <+: s) (starts : literal ['R', ','] <+: s)
    (parts : RequestParts (s.drop 2) f.command f.args) : Describes (describeRead f) s := by
  have printed : describeRead f =
      .ok (⟨"[FRAME] Read要求   command=%-4s args=\"%s\"\n",
        [.s ((commandToken s).take 7), .s (argumentsShown s)]⟩, 0) := by
    rw [describeRead, readString_command noNul parts, ok_bind, readString_args noNul parts, ok_bind]
  refine ⟨_, printed, ?_⟩
  rw [render, pieces_read, description, if_neg notWrite, if_pos starts]
  simp [fill, characters, commandShown, padTo]

/-- The scanned number is the one that the scanner finds. -/
theorem ScannedCode.eq {code : Int} (scanned : ScannedCode s code) :
    code = (Scanf.scanInt 3 s).getD 0 := by
  rcases scanned with numeral | ⟨rfl, none⟩
  · rw [Scanf.scanInt_eq_some_iff.mpr numeral, Option.getD_some]
  · cases found : Scanf.scanInt 3 s with
    | none => rfl
    | some x => exact absurd (Scanf.scanInt_eq_some_iff.mp found) (none x)

theorem describeNg_describes {f : FrameNgReply} (notWrite : ¬literal ['W', ','] <+: s)
    (notRead : ¬literal ['R', ','] <+: s) (starts : literal ['N', 'G', ',', 'T'] <+: s)
    (scanned : ScannedCode (s.drop 4) f.errorCode) : Describes (describeNg f) s := by
  refine ⟨_, rfl, ?_⟩
  rw [render, pieces_ng, description, if_neg notWrite, if_neg notRead, if_pos starts, scanned.eq]
  simp [fill, characters, codeShown, padTo]

theorem describeOk_describes {f : FrameOkReply} (noNul : 0 ∉ s) (notWrite : ¬literal ['W', ','] <+: s)
    (notRead : ¬literal ['R', ','] <+: s) (notNg : ¬literal ['N', 'G', ',', 'T'] <+: s)
    (payload : f.payload.bytes = padded 64 (s.take 63)) : Describes (describeOk f) s := by
  have printed : describeOk f =
      .ok (⟨"[FRAME] OK応答     payload=\"%s\"\n", [.s (s.take 63)]⟩, 0) := by
    rw [describeOk, readString_cut payload noNul, ok_bind]
  refine ⟨_, printed, ?_⟩
  rw [render, pieces_ok, description, if_neg notWrite, if_neg notRead, if_neg notNg]
  simp [fill, characters, padTo]

/-- A terminated line is classified as a frame that is described by its text. -/
theorem classified_describes {line : List UInt8} (terminated : 0 ∈ line) :
    ∃ frame : FrameValue, classifyLine line = .ok (.ok (Frame.encode model frame)) ∧
      Describes (describers frame.1 frame.2) (text line) := by
  have noNul : 0 ∉ text line := zero_notMem_text
  obtain ⟨_, _, _, compared⟩ := exists_compared terminated
  by_cases write : literal ['W', ','] <+: text line
  · obtain ⟨f, returned, parts⟩ := classify_write terminated compared write
    exact ⟨⟨writeKind, f⟩, returned, describeWrite_describes noNul write parts⟩
  · by_cases read : literal ['R', ','] <+: text line
    · obtain ⟨f, returned, parts⟩ := classify_read terminated compared write read
      exact ⟨⟨readKind, f⟩, returned, describeRead_describes noNul write read parts⟩
    · by_cases ng : literal ['N', 'G', ',', 'T'] <+: text line
      · obtain ⟨f, returned, scanned⟩ := classify_ng terminated compared write read ng
        exact ⟨⟨ngKind, f⟩, returned, describeNg_describes write read ng scanned⟩
      · obtain ⟨f, returned, payload⟩ := classify_ok terminated compared write read ng
        exact ⟨⟨okKind, f⟩, returned, describeOk_describes noNul write read ng payload⟩

end Describe

section Receive

theorem frameDescribe_encode (printed : Printed) (frame : FrameValue) :
    frameDescribe printed (Frame.encode model frame) =
      .ok ((describe frame.1 printed frame.2).1, (describe frame.1 printed frame.2).2.2) := by
  rw [frameDescribe, Frame.run_match]
  rfl

/-- One line more is printed for each line received. -/
theorem receiveLine_eq {line : List UInt8} (terminated : 0 ∈ line) (printed : List Line) :
    ∃ shown, receiveLine (.ok printed) line = .ok (.ok (printed ++ [shown])) ∧
      render shown = some (description (text line)) := by
  obtain ⟨frame, classified, shown, described, rendered⟩ := classified_describes terminated
  refine ⟨shown, ?_, rendered⟩
  simp only [receiveLine, classified, ok_bind, frameDescribe_encode, describe, described]

theorem receiveFrom_eq {received : List (List UInt8)} (terminated : ∀ line ∈ received, 0 ∈ line)
    (printed : List Line) :
    ∃ shown, received.foldlM receiveLine (.ok printed) = .ok (.ok (printed ++ shown)) ∧
      shown.map render = received.map fun line => some (description (text line)) := by
  induction received generalizing printed with
  | nil => exact ⟨[], by rw [List.append_nil]; rfl, rfl⟩
  | cons line received ih =>
      obtain ⟨head, first, rendered⟩ := receiveLine_eq (terminated line List.mem_cons_self) printed
      obtain ⟨tail, rest, rendered'⟩ :=
        ih (fun line member => terminated line (List.mem_cons_of_mem _ member)) (printed ++ [head])
      refine ⟨head :: tail, ?_, ?_⟩
      · rw [List.foldlM_cons, first, ok_bind, rest, List.append_assoc, List.singleton_append]
      · rw [List.map_cons, List.map_cons, rendered, rendered']

theorem receiveLines_rendered {received : List (List UInt8)} (terminated : ∀ line ∈ received, 0 ∈ line) :
    ∃ printed, receiveLines received = .ok (.ok printed) ∧ printed.length = received.length ∧
      renderAll printed = some (received.flatMap fun line => description (text line)) := by
  obtain ⟨printed, ran, rendered⟩ := receiveFrom_eq terminated []
  refine ⟨printed, ran, ?_, ?_⟩
  · rw [← List.length_map, rendered, List.length_map]
  · rw [List.flatMap_def]
    apply renderAll_of_map
    rw [rendered, List.map_map]
    rfl

/-- The loop prints, for lines that are terminated, the description of each in order. -/
theorem received_lines_described (received : List (List UInt8)) (terminated : ∀ line ∈ received, 0 ∈ line) :
    ∃ printed, receiveLines received = .ok (.ok printed) ∧ printed.length = received.length ∧
      renderAll printed = some (received.flatMap fun line => description (text line)) :=
  receiveLines_rendered terminated

/-- `"W,MST,Kind=1"` and `"NG,T003"`, as the demo receives them -/
theorem received_lines_described_demo :
    ∃ printed,
      receiveLines [literal "W,MST,Kind=1".toList ++ [0], literal "NG,T003".toList ++ [0]] =
          .ok (.ok printed) ∧
        printed.length = 2 ∧
        renderAll printed =
          some (description (literal "W,MST,Kind=1".toList) ++ description (literal "NG,T003".toList)) :=
  received_lines_described [literal "W,MST,Kind=1".toList ++ [0], literal "NG,T003".toList ++ [0]]
    (by decide)

end Receive

section Told

variable {s t : List UInt8}

/-- The letter behind `[FRAME] ` -/
def letter : Fin Frame.size → UInt8
  | ⟨0, _⟩ => 87
  | ⟨1, _⟩ => 82
  | ⟨2, _⟩ => 79
  | ⟨3, _⟩ => 78

theorem letter_injective : Function.Injective letter := by
  have apart : ∀ i j : Fin Frame.size, letter i = letter j → i = j := by decide
  exact fun i j => apart i j

theorem description_of_kind : description s =
    match kindOf s with
    | ⟨0, _⟩ => utf8 "[FRAME] Write要求  command=" ++
        (commandShown s ++ (utf8 " args=\"" ++ (argumentsShown s ++ utf8 "\"\n")))
    | ⟨1, _⟩ => utf8 "[FRAME] Read要求   command=" ++
        (commandShown s ++ (utf8 " args=\"" ++ (argumentsShown s ++ utf8 "\"\n")))
    | ⟨2, _⟩ => utf8 "[FRAME] OK応答     payload=\"" ++ (s.take 63 ++ utf8 "\"\n")
    | ⟨3, _⟩ => utf8 "[FRAME] NG応答     " ++ (utf8 (codeShown s) ++ utf8 "\n") := by
  rw [description, kindOf]
  split
  · rfl
  · split
    · rfl
    · split <;> rfl

theorem getElem?_of_start {start rest : List UInt8} {b : UInt8} (letter : start[8]? = some b) :
    (start ++ rest)[8]? = some b := by
  obtain ⟨inside, _⟩ := List.getElem?_eq_some_iff.mp letter
  rw [List.getElem?_append_left inside, letter]

theorem letter_of_description : (description s)[8]? = some (letter (kindOf s)) := by
  rw [description_of_kind]
  match kindOf s with
  | ⟨0, _⟩ => exact getElem?_of_start (b := 87) (by decide +kernel)
  | ⟨1, _⟩ => exact getElem?_of_start (b := 82) (by decide +kernel)
  | ⟨2, _⟩ => exact getElem?_of_start (b := 79) (by decide +kernel)
  | ⟨3, _⟩ => exact getElem?_of_start (b := 78) (by decide +kernel)

/-- A description tells the kind of the frame. -/
theorem kind_of_description (same : description s = description t) : kindOf s = kindOf t := by
  apply letter_injective
  have letters := letter_of_description (s := s)
  rw [same, letter_of_description] at letters
  exact (Option.some.inj letters).symm

/-- Commands shown are of 4 to 7 bytes. -/
theorem length_commandShown : 4 ≤ (commandShown s).length ∧ (commandShown s).length ≤ 7 := by
  have cut : ((commandToken s).take 7).length ≤ 7 := List.length_take_le _ _
  rw [commandShown, length_padTo]
  omega

/-- The text between the command and its arguments begins with a blank, and has no other. -/
theorem request_fields_told {command command' args args' : List UInt8}
    (length : 4 ≤ command.length ∧ command.length ≤ 7)
    (length' : 4 ≤ command'.length ∧ command'.length ≤ 7)
    (same : command ++ (utf8 " args=\"" ++ (args ++ utf8 "\"\n")) =
      command' ++ (utf8 " args=\"" ++ (args' ++ utf8 "\"\n"))) :
    command = command' ∧ args = args' := by
  have label : utf8 " args=\"" = space :: utf8 "args=\"" := by decide +kernel
  have width : (utf8 "args=\"").length = 6 := by decide +kernel
  have far (args : List UInt8) : space ∉ (utf8 "args=\"" ++ args).take 6 := by
    rw [List.take_left' width]
    decide +kernel
  rw [label] at same
  obtain ⟨commands, rest⟩ := append_far_inj (by omega) (by omega) (far _) (far _) same
  exact ⟨commands, List.append_cancel_right (List.append_cancel_left rest)⟩

/-- Two lines are described alike exactly when they are of one kind and give the same to the terminal. -/
theorem description_eq_iff (s t : List UInt8) :
    description s = description t ↔ kindOf s = kindOf t ∧ ShownAlike s t (kindOf s) := by
  constructor
  · intro same
    have kinds := kind_of_description same
    refine ⟨kinds, ?_⟩
    rw [description_of_kind, description_of_kind (s := t), ← kinds] at same
    match kindOf s, same with
    | ⟨0, _⟩, same | ⟨1, _⟩, same =>
        exact request_fields_told length_commandShown length_commandShown (List.append_cancel_left same)
    | ⟨2, _⟩, same => exact List.append_cancel_right (List.append_cancel_left same)
    | ⟨3, _⟩, same => exact utf8_injective (List.append_cancel_right (List.append_cancel_left same))
  · rintro ⟨kinds, alike⟩
    rw [description_of_kind, description_of_kind (s := t), ← kinds]
    match kindOf s, alike with
    | ⟨0, _⟩, alike | ⟨1, _⟩, alike => rw [alike.1, alike.2]
    | ⟨2, _⟩, alike =>
        have payloads : s.take 63 = t.take 63 := alike
        rw [payloads]
    | ⟨3, _⟩, alike =>
        have names : codeShown s = codeShown t := alike
        rw [names]

end Told

section Output

variable {s : List UInt8}

/-- No name of an error has a line end. -/
theorem newline_notMem_ngErrorName (code : Int) : newline ∉ utf8 (ngErrorName code) := by
  unfold ngErrorName
  split <;> decide +kernel

theorem newline_notMem_commandShown (delimited : newline ∉ s) : newline ∉ commandShown s := by
  apply notMem_padTo
  · intro member
    exact delimited (List.mem_of_mem_drop (before_isPrefix.subset (List.mem_of_mem_take member)))
  · decide

theorem newline_notMem_argumentsShown (delimited : newline ∉ s) : newline ∉ argumentsShown s := by
  intro member
  exact delimited (List.mem_of_mem_drop (after_isSuffix.subset (List.mem_of_mem_take member)))

/-- The description of a line is a line again. -/
theorem description_stopped (delimited : newline ∉ s) : Stopped newline (description s) := by
  have quoted : Stopped newline (utf8 "\"\n") := ⟨utf8 "\"", by decide +kernel, by decide +kernel⟩
  have ended : Stopped newline (utf8 "\n") := ⟨[], List.not_mem_nil, by decide +kernel⟩
  have arguments : Stopped newline (utf8 " args=\"" ++ (argumentsShown s ++ utf8 "\"\n")) :=
    .append (by decide +kernel) (.append (newline_notMem_argumentsShown delimited) quoted)
  rw [description_of_kind]
  match kindOf s with
  | ⟨0, _⟩ | ⟨1, _⟩ =>
      exact .append (by decide +kernel) (.append (newline_notMem_commandShown delimited) arguments)
  | ⟨2, _⟩ =>
      have payload : newline ∉ s.take 63 := fun member => delimited (List.mem_of_mem_take member)
      exact .append (by decide +kernel) (.append payload quoted)
  | ⟨3, _⟩ => exact .append (by decide +kernel) (.append (newline_notMem_ngErrorName _) ended)

theorem map_description_eq_iff {received received' : List (List UInt8)} :
    (received.map fun line => description (text line)) = (received'.map fun line => description (text line)) ↔
      List.Forall₂ ToldAlike received received' := by
  rw [← List.forall₂_eq_eq_eq, List.forall₂_map_left_iff, List.forall₂_map_right_iff]
  simp only [description_eq_iff]
  exact Iff.rfl

/-- Two sequences of received lines give the same bytes on the terminal exactly when they are of one
    length, and line by line of one kind and shown alike. -/
theorem output_eq_iff {received received' : List (List UInt8)} {printed printed' : List Line}
    (lines : ∀ line ∈ received, ReceivedLine line) (lines' : ∀ line ∈ received', ReceivedLine line)
    (ran : receiveLines received = .ok (.ok printed)) (ran' : receiveLines received' = .ok (.ok printed')) :
    renderAll printed = renderAll printed' ↔ List.Forall₂ ToldAlike received received' := by
  have rendered {received : List (List UInt8)} {printed : List Line}
      (lines : ∀ line ∈ received, ReceivedLine line) (ran : receiveLines received = .ok (.ok printed)) :
      renderAll printed = some (received.map fun line => description (text line)).flatten := by
    obtain ⟨same, ran', _, rendered⟩ :=
      receiveLines_rendered fun line member => (lines line member).terminated
    obtain rfl := Except.ok.inj (Except.ok.inj (ran.symm.trans ran'))
    rw [rendered, List.flatMap_def]
  have stopped {received : List (List UInt8)} (lines : ∀ line ∈ received, ReceivedLine line) :
      ∀ shown ∈ received.map fun line => description (text line), Stopped newline shown := by
    intro shown member
    obtain ⟨line, inside, rfl⟩ := List.mem_map.mp member
    exact description_stopped (lines line inside).delimited
  rw [rendered lines ran, rendered lines' ran', Option.some.injEq, ← map_description_eq_iff]
  constructor
  · intro same
    exact flatten_stopped_inj (stopped lines) (stopped lines') same
  · intro same
    rw [same]

/-- `"R,STA"` and `"R,STA "` are shown alike: the command takes four columns. -/
theorem output_eq_iff_columns :
    ∃ printed printed',
      receiveLines [literal "R,STA".toList ++ [0]] = .ok (.ok printed) ∧
        receiveLines [literal "R,STA ".toList ++ [0]] = .ok (.ok printed') ∧
        renderAll printed = renderAll printed' := by
  have line : ∀ line ∈ [literal "R,STA".toList ++ [0]], ReceivedLine line :=
    List.forall_mem_singleton.mpr { terminated := by decide, delimited := by decide }
  have line' : ∀ line ∈ [literal "R,STA ".toList ++ [0]], ReceivedLine line :=
    List.forall_mem_singleton.mpr { terminated := by decide, delimited := by decide }
  obtain ⟨printed, ran, _⟩ := receiveLines_rendered fun l member => (line l member).terminated
  obtain ⟨printed', ran', _⟩ := receiveLines_rendered fun l member => (line' l member).terminated
  refine ⟨printed, printed', ran, ran', (output_eq_iff line line' ran ran').mpr (.cons ?_ .nil)⟩
  exact ⟨by decide, by decide, by decide⟩

end Output

end ProtocolFrame

end GenericSumType
