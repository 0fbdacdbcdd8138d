/-
Module: GenericSumType.Examples.MotorCommand
Layer: Examples
Purpose: `examples/command_demo.c`: commands that set the speed of a stepping motor, move it and stop it.
Imports: GenericSumType.Semantics.CommandLoop, GenericSumType.Library.SignedInt
Trusted boundary: human-reviewed transcription of the demo
Main exports: MotorCmd, MotorState, onSetSpeed, onMoveBy, onStop, handlers, applyAll
Open obligations: none
-/
import GenericSumType.Semantics.CommandLoop
import GenericSumType.Library.SignedInt

namespace GenericSumType

namespace MotorCommand

open SignedInt

inductive TypeText where
  | SetSpeed
  | MoveBy
  | Stop
  | MotorState
  | void
deriving DecidableEq, Repr

variable (INT LONG : IntType)

structure SetSpeed where
  rpm : INT.Value

structure MoveBy where
  steps : INT.Value

/-- No data; C wants a field. -/
structure Stop where
  unused : INT.Value

def model : TypeModel TypeText where
  typedefs b := .named b false
  Val
    | .named .SetSpeed _ => SetSpeed INT
    | .named .MoveBy _ => MoveBy INT
    | .named .Stop _ => Stop INT
    | _ => Unit
  zero
    | .named .SetSpeed _ => { rpm := INT.zero }
    | .named .MoveBy _ => { steps := INT.zero }
    | .named .Stop _ => { unused := INT.zero }
    | .named .MotorState _ => ()
    | .named .void _ => ()
    | .pointer _ _ => ()

/-- `MOTOR_CMD` -/
def MotorCmd : SumInstance TypeText where
  NAME := "MotorCmd"
  VARIANTS :=
    [{ tag := "set_speed", type := { base := .SetSpeed, tail := [] } },
      { tag := "move_by", type := { base := .MoveBy, tail := [] } },
      { tag := "stop", type := { base := .Stop, tail := [] } }]
  DISPATCH_FN := "MotorCmd_apply"
  VOID := [.name .void]
  CTX_TYPE := [.name .MotorState]
  nonempty := by simp
  tagsDistinct := by simp
  onParamsVisible := by decide
  copyParamsVisible := by decide

/-- `pos` is a `long`, `rpm` an `int`. -/
structure MotorState where
  pos : LONG.Value
  rpm : INT.Value

variable {INT LONG}

/-- What a handler leaves behind; it prints nothing. -/
abbrev Handled (INT LONG : IntType) : Type := Except Overflow (MotorState INT LONG × Unit)

def onSetSpeed (c : SetSpeed INT) (s : MotorState INT LONG) : Handled INT LONG :=
  .ok ({ s with rpm := c.rpm }, ())

def onMoveBy (c : MoveBy INT) (s : MotorState INT LONG) : Handled INT LONG := do
  let pos ← LONG.result (s.pos.1 + c.steps.1)
  .ok ({ s with pos := pos }, ())

def onStop (_ : Stop INT) (s : MotorState INT LONG) : Handled INT LONG :=
  .ok ({ s with rpm := INT.zero }, ())

/-- The handlers in list order. -/
def handlers : ContextHandlers (MotorCmd.Payload (model INT)) Overflow (MotorState INT LONG) Unit
  | ⟨0, _⟩ => onSetSpeed
  | ⟨1, _⟩ => onMoveBy
  | ⟨2, _⟩ => onStop

/-- A `MotorCmd` value. -/
abbrev Command (INT : IntType) : Type := (i : Fin MotorCmd.size) × MotorCmd.Payload (model INT) i

def setSpeed (rpm : INT.Value) : Command INT := ⟨⟨0, Nat.zero_lt_succ 2⟩, ({ rpm := rpm } : SetSpeed INT)⟩

def moveBy (steps : INT.Value) : Command INT :=
  ⟨⟨1, Nat.succ_lt_succ (Nat.zero_lt_succ 1)⟩, ({ steps := steps } : MoveBy INT)⟩

def stop : Command INT := ⟨⟨2, Nat.lt_succ_self 2⟩, ({ unused := INT.zero } : Stop INT)⟩

/-- `MotorCmd_apply(&program[i], &state, on_set_speed, on_move_by, on_stop);` for each command -/
def applyAll (state : MotorState INT LONG) (program : List (Command INT)) :
    Except Fault (Session Overflow (MotorState INT LONG) Unit) :=
  MotorCmd.dispatchAll (model INT) handlers state program

end MotorCommand

end GenericSumType
