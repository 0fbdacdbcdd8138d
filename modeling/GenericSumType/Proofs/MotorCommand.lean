/-
Module: GenericSumType.Proofs.MotorCommand
Layer: Proofs
Purpose: A motor program is defined exactly when no position that it passes leaves `long`; it then ends at
  the sum of its moves, with the speed that its last speed command set.
Imports: GenericSumType.Examples.MotorCommand, GenericSumType.Library.LastWrite,
  GenericSumType.Proofs.CommandLoop
Trusted boundary: none
Main exports: moves, speed, run_defined, run_overflows, moves_inRange, motor_program_runs_iff
Open obligations: none
-/
import GenericSumType.Examples.MotorCommand
import GenericSumType.Library.LastWrite
import GenericSumType.Proofs.CommandLoop

namespace GenericSumType

namespace MotorCommand

open LastWrite SignedInt

variable {INT LONG : IntType}

/-- By how much each command moves the motor, in list order. -/
def moveOf : (i : Fin MotorCmd.size) → MotorCmd.Payload (model INT) i → Option Int
  | ⟨0, _⟩ => fun (_ : SetSpeed INT) => none
  | ⟨1, _⟩ => fun (c : MoveBy INT) => some c.steps.1
  | ⟨2, _⟩ => fun (_ : Stop INT) => none

/-- The speed that each command sets, in list order. -/
def speedOf : (i : Fin MotorCmd.size) → MotorCmd.Payload (model INT) i → Option INT.Value
  | ⟨0, _⟩ => fun (c : SetSpeed INT) => some c.rpm
  | ⟨1, _⟩ => fun (_ : MoveBy INT) => none
  | ⟨2, _⟩ => fun (_ : Stop INT) => some INT.zero

/-- The moves of a program. -/
def moves (program : List (Command INT)) : List Int := program.filterMap fun c => moveOf c.1 c.2

/-- The speed after a program. -/
def speed (rpm : INT.Value) (program : List (Command INT)) : INT.Value :=
  register (fun c => speedOf c.1 c.2) rpm program

section Step

variable {state : MotorState INT LONG} {c : Command INT}

theorem step_of_no_move : moveOf c.1 c.2 = none →
    handlers.step state c = .ok ({ state with rpm := (speedOf c.1 c.2).getD state.rpm }, ()) :=
  match c with
  | ⟨⟨0, _⟩, _⟩ | ⟨⟨2, _⟩, _⟩ => fun _ => rfl
  | ⟨⟨1, _⟩, _⟩ => fun still => nomatch still

variable (state) in
theorem step_of_move {d : Int} : moveOf c.1 c.2 = some d →
    speedOf c.1 c.2 = none ∧
      handlers.step state c =
        (LONG.result (state.pos.1 + d)).map fun pos => ({ state with pos := pos }, ()) :=
  match c with
  | ⟨⟨0, _⟩, _⟩ | ⟨⟨2, _⟩, _⟩ => fun moved => nomatch moved
  | ⟨⟨1, _⟩, c⟩ => by
      intro moved
      obtain rfl := Option.some.inj moved
      refine ⟨rfl, ?_⟩
      change (LONG.result _ >>= _) = _
      cases LONG.result (state.pos.1 + (show MoveBy INT from c).steps.1) with
      | error e => rfl
      | ok pos => rfl

end Step

section Runs

/-- The state that a program leaves when its positions are in range. -/
structure Reaches (state : MotorState INT LONG) (program : List (Command INT))
    (state' : MotorState INT LONG) : Prop where
  pos : state'.pos.1 = state.pos.1 + (moves program).sum
  rpm : state'.rpm = speed state.rpm program

/-- By induction on the program: a move needs the next position to be in range, other commands do not
    change the position. -/
theorem run_defined (state : MotorState INT LONG) (program : List (Command INT))
    (inRange : LONG.PartialSumsInRange state.pos.1 (moves program)) :
    ∃ state' printed, StepMachine.run handlers.step state program = .ok (state', printed) ∧
      Reaches state program state' := by
  induction program generalizing state with
  | nil => exact ⟨state, [], rfl, (Int.add_zero _).symm, rfl⟩
  | cons c program ih =>
      cases moved : moveOf c.1 c.2 with
      | none =>
          have same : moves (c :: program) = moves program := List.filterMap_cons_none moved
          rw [same] at inRange
          obtain ⟨state', printed, ran, reaches⟩ :=
            ih { state with rpm := (speedOf c.1 c.2).getD state.rpm } inRange
          refine ⟨state', _, StepMachine.run_cons_of_ok (step_of_no_move moved) ran, ?_, ?_⟩
          · rw [same]
            exact reaches.pos
          · rw [reaches.rpm, speed, speed, register_cons]
      | some d =>
          have split : moves (c :: program) = d :: moves program := List.filterMap_cons_some moved
          rw [split] at inRange
          have rest := (partialSums_cons_iff.mp inRange).2
          obtain ⟨still, stepped⟩ := step_of_move state moved
          have next : LONG.InRange (state.pos.1 + d) := partialSums_start rest
          rw [result_of_inRange next] at stepped
          obtain ⟨state', printed, ran, reaches⟩ := ih { state with pos := ⟨state.pos.1 + d, next⟩ } rest
          refine ⟨state', _, StepMachine.run_cons_of_ok stepped ran, ?_, ?_⟩
          · rw [reaches.pos, split, List.sum_cons, Int.add_assoc]
          · rw [reaches.rpm, speed, speed, register_cons, still]
            rfl

/-- The first position out of range ends the run. -/
theorem run_overflows (state : MotorState INT LONG) (program : List (Command INT))
    (outside : ¬LONG.PartialSumsInRange state.pos.1 (moves program)) :
    StepMachine.run handlers.step state program = .error .overflow := by
  induction program generalizing state with
  | nil => exact absurd (partialSums_nil_iff.mpr state.pos.2) outside
  | cons c program ih =>
      cases moved : moveOf c.1 c.2 with
      | none =>
          have same : moves (c :: program) = moves program := List.filterMap_cons_none moved
          rw [same] at outside
          have rest := ih { state with rpm := (speedOf c.1 c.2).getD state.rpm } outside
          simp only [StepMachine.run, step_of_no_move moved, rest]
      | some d =>
          have split : moves (c :: program) = d :: moves program := List.filterMap_cons_some moved
          rw [split, partialSums_cons_iff, not_and] at outside
          have stepped := (step_of_move state moved).2
          by_cases next : LONG.InRange (state.pos.1 + d)
          · rw [result_of_inRange next] at stepped
            have rest := ih { state with pos := ⟨state.pos.1 + d, next⟩ } (outside state.pos.2)
            simp only [StepMachine.run, stepped, Except.map, rest]
          · rw [result_of_not_inRange next] at stepped
            simp only [StepMachine.run, stepped, Except.map]

theorem moveOf_inRange {c : Command INT} {d : Int} : moveOf c.1 c.2 = some d → INT.InRange d :=
  match c with
  | ⟨⟨0, _⟩, _⟩ | ⟨⟨2, _⟩, _⟩ => fun moved => nomatch moved
  | ⟨⟨1, _⟩, c⟩ => fun moved => Option.some.inj moved ▸ (show MoveBy INT from c).steps.2

theorem moves_inRange (program : List (Command INT)) : ∀ d ∈ moves program, INT.InRange d := by
  intro d member
  obtain ⟨c, _, moved⟩ := List.mem_filterMap.mp member
  exact moveOf_inRange moved

/-- A program is defined exactly when every position that it passes is in range of `long`; it then ends at
    the sum of its moves with the speed set last.  It is always defined when its moves stay in range were
    they all as long as an `int` can be. -/
theorem motor_program_runs_iff (state : MotorState INT LONG) (program : List (Command INT)) :
    (LONG.PartialSumsInRange state.pos.1 (moves program) →
        ∃ state' printed, applyAll state program = .ok (.ok (state', printed)) ∧
          state'.pos.1 = state.pos.1 + (moves program).sum ∧ state'.rpm = speed state.rpm program) ∧
      (¬LONG.PartialSumsInRange state.pos.1 (moves program) →
        applyAll state program = .ok (.error .overflow)) ∧
      (LONG.least ≤ state.pos.1 + (moves program).length * INT.least →
        state.pos.1 + (moves program).length * INT.greatest ≤ LONG.greatest →
        LONG.PartialSumsInRange state.pos.1 (moves program)) := by
  rw [applyAll, SumInstance.dispatchAll_eq_run]
  refine ⟨?_, ?_, ?_⟩
  · intro inRange
    obtain ⟨state', printed, ran, reaches⟩ := run_defined state program inRange
    exact ⟨state', printed, congrArg Except.ok ran, reaches.pos, reaches.rpm⟩
  · intro outside
    exact congrArg Except.ok (run_overflows state program outside)
  · exact partialSums_of_steps (moves_inRange program)

/-- The program of the demo, in the smallest types that C allows. -/
example :
    let int : IntType := ⟨-32767, 32767, by decide, by decide⟩
    let long : IntType := ⟨-2147483647, 2147483647, by decide, by decide⟩
    ∃ state' printed,
      applyAll (⟨long.zero, int.zero⟩ : MotorState int long)
          [setSpeed ⟨120, by decide⟩, moveBy ⟨400, by decide⟩, moveBy ⟨-150, by decide⟩, stop] =
        .ok (.ok (state', printed)) ∧ state'.pos.1 = 250 ∧ state'.rpm.1 = 0 :=
  ⟨_, _, rfl, rfl, rfl⟩

end Runs

end MotorCommand

end GenericSumType
