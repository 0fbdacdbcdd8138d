/-
Module: GenericSumType.Spec.LaserDevice
Layer: Spec
Purpose: What the commands of `internal_command.h` do to the device over a whole queue: every field is a
  register, and each command writes to some of them.  The documented ranges of the fields and the groups
  of commands that work on the same fields.
Imports: GenericSumType.Examples.InternalCommand, GenericSumType.Library.LastWrite
Trusted boundary: human-reviewed statement of purpose
Main exports: Writes, writes, stateAfter, Group, groupOf, InRange, Documented
Open obligations: none
-/
import GenericSumType.Examples.InternalCommand
import GenericSumType.Library.LastWrite

namespace GenericSumType

namespace LaserDevice

open LastWrite

/-- What one command writes to each field. -/
structure Writes where
  printing : Option Int := none
  printMode : Option Int := none
  running : Option Int := none
  guideOn : Option Int := none
  guideKind : Option Int := none
  errorActive : Option Int := none

/-- A guide kind that the device has. -/
def GuideKind (kind : Int) : Prop := 0 ≤ kind ∧ kind ≤ 2

instance (kind : Int) : Decidable (GuideKind kind) := inferInstanceAs (Decidable (_ ∧ _))

/-- The writes of each command, in list order. -/
def commandWrites : (i : Fin InternalCommand.size) → InternalCommand.Payload model i → Writes
  | ⟨0, _⟩ => fun (c : CmdPrintStart) => { printing := some 1, printMode := some c.kind }
  | ⟨1, _⟩ => fun (_ : CmdPrintStop) => { printing := some 0 }
  | ⟨2, _⟩ => fun (c : CmdRunControl) => { running := some c.mode }
  | ⟨3, _⟩ => fun (_ : CmdErrorClear) => { errorActive := some 0 }
  | ⟨4, _⟩ => fun (c : CmdGuideStart) =>
      if GuideKind c.kind then { guideOn := some 1, guideKind := some c.kind } else {}
  | ⟨5, _⟩ => fun (_ : CmdGuideStop) => { guideOn := some 0 }

def writes (c : Command) : Writes := commandWrites c.1 c.2

/-- Every field holds what the last command that writes to it wrote, or what it held before. -/
def stateAfter (st : LaserDeviceState) (commands : List Command) : LaserDeviceState where
  printing := register (fun c => (writes c).printing) st.printing commands
  printMode := register (fun c => (writes c).printMode) st.printMode commands
  running := register (fun c => (writes c).running) st.running commands
  guideOn := register (fun c => (writes c).guideOn) st.guideOn commands
  guideKind := register (fun c => (writes c).guideKind) st.guideKind commands
  errorActive := register (fun c => (writes c).errorActive) st.errorActive commands

/-- `fresh_state()` of the tests -/
def freshState : LaserDeviceState where
  printing := 0
  printMode := 0
  running := 0
  guideOn := 0
  guideKind := 0
  errorActive := 0

/-- `InternalCommand_new_print_start((CmdPrintStart){ .kind = kind })` -/
def printStart (kind : Int) : Command :=
  ⟨⟨0, Nat.zero_lt_succ 5⟩, ({ kind := kind } : CmdPrintStart)⟩

/-- `InternalCommand_new_guide_start((CmdGuideStart){ .kind = kind })` -/
def guideStart (kind : Int) : Command :=
  ⟨⟨4, Nat.lt_succ_of_le (Nat.le_succ 4)⟩, ({ kind := kind } : CmdGuideStart)⟩

/-- Commands of different groups work on different fields. -/
inductive Group where
  | print
  | run
  | error
  | guide
deriving DecidableEq, Repr

def groups : Fin InternalCommand.size → Group
  | ⟨0, _⟩ => .print
  | ⟨1, _⟩ => .print
  | ⟨2, _⟩ => .run
  | ⟨3, _⟩ => .error
  | ⟨4, _⟩ => .guide
  | ⟨5, _⟩ => .guide

def groupOf (c : Command) : Group := groups c.1

/-- The commands of one group, in order. -/
def ofGroup (g : Group) (commands : List Command) : List Command :=
  commands.filter fun c => groupOf c = g

/-- Writes to the fields of one group only. -/
structure Writes.Within (w : Writes) (g : Group) : Prop where
  printing : ∀ x, w.printing = some x → g = .print
  printMode : ∀ x, w.printMode = some x → g = .print
  running : ∀ x, w.running = some x → g = .run
  guideOn : ∀ x, w.guideOn = some x → g = .guide
  guideKind : ∀ x, w.guideKind = some x → g = .guide
  errorActive : ∀ x, w.errorActive = some x → g = .error

/-- 0 or 1 -/
def Flag (x : Int) : Prop := x = 0 ∨ x = 1

instance (x : Int) : Decidable (Flag x) := inferInstanceAs (Decidable (_ ∨ _))

/-- The comments of `LaserDeviceState`: flags, a print mode of 0 or 1, a guide kind of 0, 1 or 2. -/
structure InRange (st : LaserDeviceState) : Prop where
  printing : Flag st.printing
  printMode : Flag st.printMode
  running : Flag st.running
  guideOn : Flag st.guideOn
  guideKind : GuideKind st.guideKind
  errorActive : Flag st.errorActive

/-- Values that may be written to each field. -/
structure Writes.InRange (w : Writes) : Prop where
  printing : ∀ x, w.printing = some x → Flag x
  printMode : ∀ x, w.printMode = some x → Flag x
  running : ∀ x, w.running = some x → Flag x
  guideOn : ∀ x, w.guideOn = some x → Flag x
  guideKind : ∀ x, w.guideKind = some x → GuideKind x
  errorActive : ∀ x, w.errorActive = some x → Flag x

/-- The comments of the payloads: a print kind of 0 or 1, a run mode of 0 or 1. -/
def documentedValues : (i : Fin InternalCommand.size) → InternalCommand.Payload model i → Prop
  | ⟨0, _⟩ => fun (c : CmdPrintStart) => Flag c.kind
  | ⟨1, _⟩ => fun (_ : CmdPrintStop) => True
  | ⟨2, _⟩ => fun (c : CmdRunControl) => Flag c.mode
  | ⟨3, _⟩ => fun (_ : CmdErrorClear) => True
  | ⟨4, _⟩ => fun (_ : CmdGuideStart) => True
  | ⟨5, _⟩ => fun (_ : CmdGuideStop) => True

/-- A print start has a documented kind and a run control a documented mode. -/
def Documented (c : Command) : Prop := documentedValues c.1 c.2

end LaserDevice

end GenericSumType
