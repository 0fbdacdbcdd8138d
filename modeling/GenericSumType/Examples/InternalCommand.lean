/-
Module: GenericSumType.Examples.InternalCommand
Layer: Examples
Purpose: `examples/internal_command.h`: commands that switch the printing, the operation, the error and
  the guide light of a laser device.  The handlers keep the accesses of their `printf` arguments.
Imports: GenericSumType.Semantics.CommandLoop, GenericSumType.Library.CString
Trusted boundary: human-reviewed transcription of the header
Main exports: InternalCommand, LaserDeviceState, onPrintStart, onRunControl, onGuideStart, handlers,
  dispatchQueue
Open obligations: none
-/
import GenericSumType.Semantics.CommandLoop
import GenericSumType.Library.CString

namespace GenericSumType

namespace LaserDevice

open CString

inductive TypeText where
  | CmdPrintStart
  | CmdPrintStop
  | CmdRunControl
  | CmdErrorClear
  | CmdGuideStart
  | CmdGuideStop
  | LaserDeviceState
  | void
deriving DecidableEq, Repr

/-- MST: 0 is normal, 1 is continuous. -/
structure CmdPrintStart where
  kind : Int
deriving DecidableEq, Repr

structure CmdPrintStop where
  reserved : Int
deriving DecidableEq, Repr

/-- UTN: 0 is stop, 1 is start. -/
structure CmdRunControl where
  mode : Int
deriving DecidableEq, Repr

structure CmdErrorClear where
  reserved : Int
deriving DecidableEq, Repr

/-- GUD: 0 is the rectangle, 1 the outline, 2 the working distance. -/
structure CmdGuideStart where
  kind : Int
deriving DecidableEq, Repr

structure CmdGuideStop where
  reserved : Int
deriving DecidableEq, Repr

def model : TypeModel TypeText where
  typedefs b := .named b false
  Val
    | .named .CmdPrintStart _ => CmdPrintStart
    | .named .CmdPrintStop _ => CmdPrintStop
    | .named .CmdRunControl _ => CmdRunControl
    | .named .CmdErrorClear _ => CmdErrorClear
    | .named .CmdGuideStart _ => CmdGuideStart
    | .named .CmdGuideStop _ => CmdGuideStop
    | _ => Unit
  zero
    | .named .CmdPrintStart _ => { kind := 0 }
    | .named .CmdPrintStop _ => { reserved := 0 }
    | .named .CmdRunControl _ => { mode := 0 }
    | .named .CmdErrorClear _ => { reserved := 0 }
    | .named .CmdGuideStart _ => { kind := 0 }
    | .named .CmdGuideStop _ => { reserved := 0 }
    | .named .LaserDeviceState _ => ()
    | .named .void _ => ()
    | .pointer _ _ => ()

/-- `INTERNAL_COMMAND_VARIANTS` -/
def InternalCommand : SumInstance TypeText where
  NAME := "InternalCommand"
  VARIANTS :=
    [{ tag := "print_start", type := { base := .CmdPrintStart, tail := [] } },
      { tag := "print_stop", type := { base := .CmdPrintStop, tail := [] } },
      { tag := "run_control", type := { base := .CmdRunControl, tail := [] } },
      { tag := "error_clear", type := { base := .CmdErrorClear, tail := [] } },
      { tag := "guide_start", type := { base := .CmdGuideStart, tail := [] } },
      { tag := "guide_stop", type := { base := .CmdGuideStop, tail := [] } }]
  DISPATCH_FN := "InternalCommand_dispatch"
  VOID := [.name .void]
  CTX_TYPE := [.name .LaserDeviceState]
  nonempty := by simp
  tagsDistinct := by simp
  onParamsVisible := by decide
  copyParamsVisible := by decide

structure LaserDeviceState where
  printing : Int
  printMode : Int
  running : Int
  guideOn : Int
  guideKind : Int
  errorActive : Int
deriving DecidableEq, Repr

/-- What a handler leaves behind. -/
abbrev Handled : Type := Except OutOfBounds (LaserDeviceState × Line)

def onPrintStart (c : CmdPrintStart) (st : LaserDeviceState) : Handled :=
  .ok
    ({ st with printing := 1, printMode := c.kind },
      ⟨"[print_start] mode=%s -> printing開始\n", [.constant (if c.kind = 1 then "連続" else "通常")]⟩)

def onPrintStop (_ : CmdPrintStop) (st : LaserDeviceState) : Handled :=
  .ok ({ st with printing := 0 }, ⟨"[print_stop]  printing停止\n", []⟩)

def onRunControl (c : CmdRunControl) (st : LaserDeviceState) : Handled :=
  let st := { st with running := c.mode }
  .ok (st, ⟨"[run_control] mode=%d -> running=%d\n", [.d c.mode, .d st.running]⟩)

def onErrorClear (_ : CmdErrorClear) (st : LaserDeviceState) : Handled :=
  .ok ({ st with errorActive := 0 }, ⟨"[error_clear] エラーを解除しました\n", []⟩)

/-- `kind_name` of `on_guide_start` -/
def kindName : Vector String 3 := #v["四角ガイド", "輪郭ガイド", "WDガイド"]

def onGuideStart (c : CmdGuideStart) (st : LaserDeviceState) : Handled :=
  if c.kind < 0 ∨ c.kind > 2 then
    .ok (st, ⟨"[guide_start] NG: kind=%d は範囲外です\n", [.d c.kind]⟩)
  else do
    let i ← arrayIndex 3 c.kind
    .ok
      ({ st with guideOn := 1, guideKind := c.kind },
        ⟨"[guide_start] kind=%s\n", [.constant kindName[i]]⟩)

def onGuideStop (_ : CmdGuideStop) (st : LaserDeviceState) : Handled :=
  .ok ({ st with guideOn := 0 }, ⟨"[guide_stop]  ガイド光を停止しました\n", []⟩)

/-- The handlers in list order. -/
def handlers : ContextHandlers (InternalCommand.Payload model) OutOfBounds LaserDeviceState Line
  | ⟨0, _⟩ => onPrintStart
  | ⟨1, _⟩ => onPrintStop
  | ⟨2, _⟩ => onRunControl
  | ⟨3, _⟩ => onErrorClear
  | ⟨4, _⟩ => onGuideStart
  | ⟨5, _⟩ => onGuideStop

/-- An `InternalCommand` value. -/
abbrev Command : Type := (i : Fin InternalCommand.size) × InternalCommand.Payload model i

/-- `InternalCommand_dispatch(&cmd, &st, on_print_start, ..., on_guide_stop);` for each command of a
    queue. -/
def dispatchQueue (st : LaserDeviceState) (commands : List Command) :
    Except Fault (Session OutOfBounds LaserDeviceState Line) :=
  InternalCommand.dispatchAll model handlers st commands

end LaserDevice

end GenericSumType
