/-
Module: GenericSumType.Proofs.LaserTranscript
Layer: Proofs
Purpose: What the output of the laser handlers tells about the device.  Its bytes tell the lines, and
  commands that print one line write the same to every field, the print mode excepted: its line shows only
  whether the kind is 1.
Imports: GenericSumType.Library.FormatReading, GenericSumType.Proofs.LaserDevice
Trusted boundary: none
Main exports: lineOf, step_line, dispatchQueue_lines, writes_told, table_lines, output_tells_device
Open obligations: none
-/
import GenericSumType.Library.FormatReading
import GenericSumType.Proofs.LaserDevice

namespace GenericSumType

namespace LaserDevice

open CString LastWrite Printf

section Lines

/-- A guide kind indexes the table of names. -/
theorem GuideKind.toNat_lt {kind : Int} (valid : GuideKind kind) : kind.toNat < 3 := by
  rw [GuideKind] at valid
  omega

/-- The name of a guide kind. -/
def guideName (kind : Int) (valid : GuideKind kind) : String := kindName.get ⟨kind.toNat, valid.toNat_lt⟩

/-- The table has a name of its own for each guide kind. -/
theorem guideName_injective {kind kind' : Int} {valid : GuideKind kind} {valid' : GuideKind kind'}
    (same : guideName kind valid = guideName kind' valid') : kind = kind' := by
  have distinct : ∀ i j : Fin 3, kindName.get i = kindName.get j → i = j := by decide
  have index : kind.toNat = kind'.toNat := Fin.val_eq_of_eq (distinct _ _ same)
  rw [GuideKind] at valid valid'
  omega

def guideLine (c : CmdGuideStart) : Line :=
  if valid : GuideKind c.kind then ⟨"[guide_start] kind=%s\n", [.constant (guideName c.kind valid)]⟩
  else ⟨"[guide_start] NG: kind=%d は範囲外です\n", [.d c.kind]⟩

/-- The lines of the commands, in list order: no line depends on the state. -/
def lines : (i : Fin InternalCommand.size) → InternalCommand.Payload model i → Line
  | ⟨0, _⟩ => fun (c : CmdPrintStart) =>
      ⟨"[print_start] mode=%s -> printing開始\n", [.constant (if c.kind = 1 then "連続" else "通常")]⟩
  | ⟨1, _⟩ => fun (_ : CmdPrintStop) => ⟨"[print_stop]  printing停止\n", []⟩
  | ⟨2, _⟩ => fun (c : CmdRunControl) => ⟨"[run_control] mode=%d -> running=%d\n", [.d c.mode, .d c.mode]⟩
  | ⟨3, _⟩ => fun (_ : CmdErrorClear) => ⟨"[error_clear] エラーを解除しました\n", []⟩
  | ⟨4, _⟩ => guideLine
  | ⟨5, _⟩ => fun (_ : CmdGuideStop) => ⟨"[guide_stop]  ガイド光を停止しました\n", []⟩

def lineOf (c : Command) : Line := lines c.1 c.2

/-- `guide_start` looks up a name only for a kind that it accepted, so it always prints a line. -/
theorem onGuideStart_line (c : CmdGuideStart) (st : LaserDeviceState) :
    (onGuideStart c st).map Prod.snd = .ok (guideLine c) := by
  rw [onGuideStart, guideLine]
  by_cases valid : GuideKind c.kind
  · have bounds := valid
    rw [GuideKind] at bounds
    have index : arrayIndex 3 c.kind = .ok ⟨c.kind.toNat, valid.toNat_lt⟩ := by
      apply dif_pos
      omega
    rw [if_neg (by omega), dif_pos valid, index]
    rfl
  · have outside : c.kind < 0 ∨ c.kind > 2 := by
      rw [GuideKind] at valid
      omega
    rw [if_pos outside, dif_neg valid]
    rfl

/-- Every command does its writes and prints its line. -/
theorem step_line (st : LaserDeviceState) (c : Command) :
    handlers.step st c = .ok (stateAfter st [c], lineOf c) := by
  have printed : (handlers.step st c).map Prod.snd = .ok (lineOf c) :=
    match c with
    | ⟨⟨0, _⟩, _⟩ | ⟨⟨1, _⟩, _⟩ | ⟨⟨2, _⟩, _⟩ | ⟨⟨3, _⟩, _⟩ | ⟨⟨5, _⟩, _⟩ => rfl
    | ⟨⟨4, _⟩, c⟩ => onGuideStart_line c st
  obtain ⟨line, done⟩ := step_eq st c
  rw [done] at printed ⊢
  obtain rfl : line = lineOf c := Except.ok.inj printed
  rfl

/-- So does a queue, command by command. -/
theorem run_lines (st : LaserDeviceState) (commands : List Command) :
    StepMachine.run handlers.step st commands = .ok (stateAfter st commands, commands.map lineOf) := by
  induction commands generalizing st with
  | nil => rfl
  | cons c commands ih =>
      rw [stateAfter_cons]
      exact StepMachine.run_cons_of_ok (step_line st c) (ih _)

/-- The lines of a queue do not depend on the state that it begins with. -/
theorem dispatchQueue_lines (st : LaserDeviceState) (commands : List Command) :
    dispatchQueue st commands = .ok (.ok (stateAfter st commands, commands.map lineOf)) := by
  rw [dispatchQueue, SumInstance.dispatchAll_eq_run, run_lines]

end Lines

section Told

/-- What each handler prints with, in list order. -/
def signatures : Fin InternalCommand.size → List Signature
  | ⟨0, _⟩ => [("[print_start] mode=%s -> printing開始\n", [.constant])]
  | ⟨1, _⟩ => [("[print_stop]  printing停止\n", [])]
  | ⟨2, _⟩ => [("[run_control] mode=%d -> running=%d\n", [.number, .number])]
  | ⟨3, _⟩ => [("[error_clear] エラーを解除しました\n", [])]
  | ⟨4, _⟩ => [("[guide_start] kind=%s\n", [.constant]), ("[guide_start] NG: kind=%d は範囲外です\n", [.number])]
  | ⟨5, _⟩ => [("[guide_stop]  ガイド光を停止しました\n", [])]

/-- No two handlers print with one format. -/
theorem signatures_disjoint :
    ∀ i j : Fin InternalCommand.size, ∀ s ∈ signatures i, s ∈ signatures j → i = j := by
  decide

theorem guideLine_signature_mem (c : CmdGuideStart) :
    signature (guideLine c) ∈ signatures ⟨4, by decide⟩ := by
  rw [guideLine]
  split
  · exact List.mem_cons_self
  · exact List.mem_cons_of_mem _ List.mem_cons_self

theorem signature_mem (c : Command) : signature (lineOf c) ∈ signatures c.1 :=
  match c with
  | ⟨⟨0, _⟩, _⟩ | ⟨⟨1, _⟩, _⟩ | ⟨⟨2, _⟩, _⟩ | ⟨⟨3, _⟩, _⟩ | ⟨⟨5, _⟩, _⟩ => List.mem_cons_self
  | ⟨⟨4, _⟩, c⟩ => guideLine_signature_mem c

/-- Two commands that print one line are of the same kind. -/
theorem position_eq {c d : Command} (same : lineOf c = lineOf d) : c.1 = d.1 :=
  signatures_disjoint c.1 d.1 (signature (lineOf c)) (signature_mem c) (same ▸ signature_mem d)

/-- Both are 1 or neither is. -/
def SameMode (x y : Int) : Prop := x = 1 ↔ y = 1

/-- Writes that differ in the print mode at most, and there not about 1. -/
structure Writes.Told (w w' : Writes) : Prop where
  printing : w.printing = w'.printing
  printMode : Option.Rel SameMode w.printMode w'.printMode
  running : w.running = w'.running
  guideOn : w.guideOn = w'.guideOn
  guideKind : w.guideKind = w'.guideKind
  errorActive : w.errorActive = w'.errorActive

theorem Writes.Told.refl {w : Writes} (keeps : w.printMode = none) : w.Told w where
  printing := rfl
  printMode := keeps ▸ .none
  running := rfl
  guideOn := rfl
  guideKind := rfl
  errorActive := rfl

/-- The word for the mode tells whether it is 1. -/
theorem printStart_told {c d : CmdPrintStart}
    (same : (if c.kind = 1 then "連続" else "通常") = if d.kind = 1 then "連続" else "通常") :
    SameMode c.kind d.kind := by
  rw [SameMode]
  by_cases first : c.kind = 1 <;> by_cases second : d.kind = 1 <;> simp_all

/-- Both lines of `guide_start` tell the kind. -/
theorem guideLine_injective {c d : CmdGuideStart} (same : guideLine c = guideLine d) :
    c.kind = d.kind := by
  rw [guideLine, guideLine] at same
  by_cases valid : GuideKind c.kind
  · by_cases valid' : GuideKind d.kind
    · rw [dif_pos valid, dif_pos valid'] at same
      have named : guideName c.kind valid = guideName d.kind valid' := by simpa using same
      exact guideName_injective named
    · rw [dif_pos valid, dif_neg valid'] at same
      simp at same
  · by_cases valid' : GuideKind d.kind
    · rw [dif_neg valid, dif_pos valid'] at same
      simp at same
    · rw [dif_neg valid, dif_neg valid'] at same
      simpa using same

theorem guideWrites_printMode (c : CmdGuideStart) :
    (if GuideKind c.kind then { guideOn := some 1, guideKind := some c.kind } else {} : Writes).printMode =
      none := by
  split <;> rfl

/-- Commands that print one line make the same writes, up to a print mode other than 1. -/
theorem writes_told {c d : Command} (same : lineOf c = lineOf d) : (writes c).Told (writes d) := by
  have position := position_eq same
  rcases c with ⟨i, c⟩
  rcases d with ⟨j, d⟩
  obtain rfl : i = j := position
  match i, c, d with
  | ⟨0, _⟩, c, d =>
      have modes : SameMode (show CmdPrintStart from c).kind (show CmdPrintStart from d).kind := by
        apply printStart_told
        simpa [lineOf, lines] using same
      exact
        { printing := rfl
          printMode := .some modes
          running := rfl
          guideOn := rfl
          guideKind := rfl
          errorActive := rfl }
  | ⟨1, _⟩, c, d => exact .refl rfl
  | ⟨2, _⟩, c, d =>
      have modes : (show CmdRunControl from c).mode = (show CmdRunControl from d).mode := by
        simpa [lineOf, lines] using same
      obtain rfl : c = d := congrArg CmdRunControl.mk modes
      exact .refl rfl
  | ⟨3, _⟩, c, d => exact .refl rfl
  | ⟨4, _⟩, c, d =>
      obtain rfl : c = d := congrArg CmdGuideStart.mk (guideLine_injective same)
      exact .refl (guideWrites_printMode c)
  | ⟨5, _⟩, c, d => exact .refl rfl

/-- States that differ in the print mode at most, and there not about 1. -/
structure Alike (st st' : LaserDeviceState) : Prop where
  printing : st.printing = st'.printing
  printMode : SameMode st.printMode st'.printMode
  running : st.running = st'.running
  guideOn : st.guideOn = st'.guideOn
  guideKind : st.guideKind = st'.guideKind
  errorActive : st.errorActive = st'.errorActive

/-- Only the print mode stands between alike and equal. -/
theorem Alike.eq {st st' : LaserDeviceState} (alike : Alike st st') (modes : st.printMode = st'.printMode) :
    st = st' := by
  rcases st with ⟨printing, printMode, running, guideOn, guideKind, errorActive⟩
  rcases st' with ⟨printing', printMode', running', guideOn', guideKind', errorActive'⟩
  rw [LaserDeviceState.mk.injEq]
  exact ⟨alike.printing, modes, alike.running, alike.guideOn, alike.guideKind, alike.errorActive⟩

/-- The same lines in the same order come from commands that print alike in pairs. -/
theorem forall₂_of_lines {commands others : List Command}
    (same : commands.map lineOf = others.map lineOf) :
    List.Forall₂ (fun c d => lineOf c = lineOf d) commands others := by
  have equal : List.Forall₂ (· = ·) (commands.map lineOf) (others.map lineOf) := by
    rw [same, List.forall₂_eq_eq_eq]
  exact List.forall₂_map_right_iff.mp (List.forall₂_map_left_iff.mp equal)

theorem rel_refl {V : Type} (x : Option V) : Option.Rel (· = ·) x x := by
  cases x with
  | none => exact .none
  | some v => exact .some rfl

/-- Queues that print the same lines leave states that differ in the print mode at most. -/
theorem stateAfter_alike {commands others : List Command} (st : LaserDeviceState)
    (same : commands.map lineOf = others.map lineOf) :
    Alike (stateAfter st commands) (stateAfter st others) := by
  have told := (forall₂_of_lines same).imp fun _ _ => writes_told
  have equal {field : Writes → Option Int} (x : Int)
      (agree : ∀ c d, (writes c).Told (writes d) → field (writes c) = field (writes d)) :
      register (fun c => field (writes c)) x commands = register (fun c => field (writes c)) x others := by
    apply register_rel (Q := Eq) (told.imp _) rfl
    intro c d wrote
    rw [agree c d wrote]
    exact rel_refl _
  exact
    { printing := equal _ fun _ _ wrote => wrote.printing
      printMode := register_rel (told.imp fun _ _ wrote => wrote.printMode) Iff.rfl
      running := equal _ fun _ _ wrote => wrote.running
      guideOn := equal _ fun _ _ wrote => wrote.guideOn
      guideKind := equal _ fun _ _ wrote => wrote.guideKind
      errorActive := equal _ fun _ _ wrote => wrote.errorActive }

/-- A documented print mode is told by whether it is 1. -/
theorem SameMode.eq_of_flags {x y : Int} (same : SameMode x y) (flag : Flag x) (flag' : Flag y) : x = y := by
  rcases flag with rfl | rfl
  · rcases flag' with rfl | rfl
    · rfl
    · exact absurd (same.mpr rfl) (by decide)
  · exact (same.mp rfl).symm

/-- Documented commands that print one line write one print mode. -/
theorem printMode_rel_of_documented {c d : Command} (documented : Documented c) (documented' : Documented d)
    (same : lineOf c = lineOf d) : Option.Rel (· = ·) (writes c).printMode (writes d).printMode := by
  have flags := ((documented_iff c).mp documented).printMode
  have flags' := ((documented_iff d).mp documented').printMode
  have told := (writes_told same).printMode
  generalize (writes c).printMode = written at flags told ⊢
  generalize (writes d).printMode = written' at flags' told ⊢
  cases told with
  | none => exact .none
  | some modes => exact .some (modes.eq_of_flags (flags _ rfl) (flags' _ rfl))

/-- Queues that print the same lines from one state leave states that differ in the print mode at most.
    They leave the same state when their values are documented ones. -/
theorem states_told (st : LaserDeviceState) {commands others : List Command}
    (same : commands.map lineOf = others.map lineOf) :
    Alike (stateAfter st commands) (stateAfter st others) ∧
      ((∀ c ∈ commands, Documented c) → (∀ c ∈ others, Documented c) →
        stateAfter st commands = stateAfter st others) := by
  have alike := stateAfter_alike st same
  refine ⟨alike, ?_⟩
  intro documented documented'
  have front := (List.forall₂_and_left commands others).mpr ⟨documented, forall₂_of_lines same⟩
  have pairs := ((List.forall₂_and_left others commands).mpr ⟨documented', front.flip⟩).flip
  apply alike.eq
  apply register_rel (Q := Eq) (pairs.imp _) rfl
  intro c d told
  exact printMode_rel_of_documented told.2.1 told.1 told.2.2

end Told

section Output

/-- All that the handlers print with. -/
def table : List Signature := (List.finRange InternalCommand.size).flatMap signatures

/-- The formats can be read back, are told apart, and end each line. -/
theorem table_lines : LineTable table where
  readable := by decide +kernel
  apart := by decide +kernel
  endsLine := by decide +kernel

theorem guideLine_oneLine (c : CmdGuideStart) : ∀ arg ∈ (guideLine c).args, newline ∉ shown arg := by
  have names : ∀ i : Fin 3, newline ∉ utf8 (kindName.get i) := by decide +kernel
  rw [guideLine]
  split
  · exact List.forall_mem_singleton.mpr (names _)
  · exact List.forall_mem_singleton.mpr newline_notMem_decimal

theorem printStart_oneLine (c : CmdPrintStart) : newline ∉ utf8 (if c.kind = 1 then "連続" else "通常") := by
  split <;> decide +kernel

theorem lineOf_oneLine (c : Command) : ∀ arg ∈ (lineOf c).args, newline ∉ shown arg :=
  match c with
  | ⟨⟨0, _⟩, c⟩ => List.forall_mem_singleton.mpr (printStart_oneLine c)
  | ⟨⟨1, _⟩, _⟩ | ⟨⟨3, _⟩, _⟩ | ⟨⟨5, _⟩, _⟩ => List.forall_mem_nil _
  | ⟨⟨2, _⟩, _⟩ =>
      List.forall_mem_cons.mpr ⟨newline_notMem_decimal, List.forall_mem_singleton.mpr newline_notMem_decimal⟩
  | ⟨⟨4, _⟩, c⟩ => guideLine_oneLine c

/-- Every command prints what the table allows. -/
theorem lineOf_printable (c : Command) : Printable table (lineOf c) where
  signature := List.mem_flatMap.mpr ⟨c.1, List.mem_finRange c.1, signature_mem c⟩
  oneLine := lineOf_oneLine c

theorem lines_printable (commands : List Command) : ∀ line ∈ commands.map lineOf, Printable table line := by
  intro line member
  obtain ⟨c, _, rfl⟩ := List.mem_map.mp member
  exact lineOf_printable c

/-- Two queues always write something from one state, and the same exactly when they print the same lines.
    Then they leave states that differ in the print mode at most, and there not about 1; they leave the same
    state when their values are documented ones. -/
theorem output_tells_device (st : LaserDeviceState) (commands others : List Command) :
    ∃ st₁ st₂ lines lines' bytes bytes',
      dispatchQueue st commands = .ok (.ok (st₁, lines)) ∧ renderAll lines = some bytes ∧
        dispatchQueue st others = .ok (.ok (st₂, lines')) ∧ renderAll lines' = some bytes' ∧
        (bytes = bytes' ↔ lines = lines') ∧
        (bytes = bytes' → Alike st₁ st₂ ∧
          ((∀ c ∈ commands, Documented c) → (∀ c ∈ others, Documented c) → st₁ = st₂)) := by
  obtain ⟨bytes, bytes', written, written', told⟩ :=
    renderAll_iff table_lines (lines_printable commands) (lines_printable others)
  refine ⟨_, _, _, _, bytes, bytes', dispatchQueue_lines st commands, written, dispatchQueue_lines st others,
    written', told, ?_⟩
  intro same
  exact states_told st (told.mp same)

/-- The print modes 0 and 7 print the same line. -/
example : lineOf (printStart 0) = lineOf (printStart 7) ∧
    stateAfter freshState [printStart 0] ≠ stateAfter freshState [printStart 7] :=
  ⟨rfl, by decide⟩

end Output

end LaserDevice

end GenericSumType
