/-
Module: GenericSumType.Examples.ResourceDemo
Layer: Examples
Purpose: `examples/resource_demo.c`: log records that own a heap string or hold a number, with their
  destroy and copy handlers.  Programs construct, copy and destroy record variables; each operation runs
  the generated functions.  The diagnostic `printf`s are left out.
Imports: GenericSumType.Header.Program, GenericSumType.Library.BlockHeap
Trusted boundary: human-reviewed transcription of the demo
Main exports: LogRecord, destroyText, copyText, RecordOp, exec
Open obligations: none
-/
import GenericSumType.Header.Program
import GenericSumType.Library.BlockHeap

namespace GenericSumType

namespace ResourceDemo

open BlockHeap (CStr Memory)

inductive TypeText where
  | LogText
  | LogMetric
  | void
deriving DecidableEq, Repr

/-- `char *msg` owns a block. -/
structure LogText (Block : Type) where
  msg : Option Block
deriving DecidableEq, Repr

structure LogMetric where
  value : Int
deriving DecidableEq, Repr

def model (Block : Type) : TypeModel TypeText where
  typedefs b := .named b false
  Val
    | .named .LogText _ => LogText Block
    | .named .LogMetric _ => LogMetric
    | _ => Unit
  zero
    | .named .LogText _ => { msg := none }
    | .named .LogMetric _ => { value := 0 }
    | .named .void _ => ()
    | .pointer _ _ => ()

/-- `LOG_RECORD` -/
def LogRecord : SumInstance TypeText where
  NAME := "LogRecord"
  VARIANTS :=
    [{ tag := "text", type := { base := .LogText, tail := [] } },
      { tag := "number", type := { base := .LogMetric, tail := [] } }]
  VOID := [.name .void]
  nonempty := by simp
  tagsDistinct := by simp
  onParamsVisible := by decide
  copyParamsVisible := by decide

variable {Block : Type} [DecidableEq Block]

/-- `free(t->msg); t->msg = NULL;` -/
def destroyText (m : Memory Block) (t : LogText Block) : Memory Block × LogText Block :=
  (m.free t.msg, { t with msg := none })

/-- `SUM_DEFINE_NOOP_DESTROY(destroy_number, LogMetric)` -/
def destroyNumber (m : Memory Block) (v : LogMetric) : Memory Block × LogMetric := (m, v)

/-- `return (LogText){ .msg = strdup(t->msg) };` -/
def copyText (m : Memory Block) (t : LogText Block) : Memory Block × LogText Block :=
  let (m, dup) := m.strdup t.msg
  (m, { msg := dup })

/-- `SUM_DEFINE_IDENTITY_COPY(copy_number, LogMetric)` -/
def copyNumber (m : Memory Block) (v : LogMetric) : Memory Block × LogMetric := (m, v)

def destroyHandlers : (i : Fin LogRecord.size) → Memory Block → LogRecord.Payload (model Block) i →
    Memory Block × LogRecord.Payload (model Block) i
  | ⟨0, _⟩ => destroyText
  | ⟨1, _⟩ => destroyNumber

def copyHandlers : (i : Fin LogRecord.size) → Memory Block → LogRecord.Payload (model Block) i →
    Memory Block × LogRecord.Payload (model Block) i
  | ⟨0, _⟩ => copyText
  | ⟨1, _⟩ => copyNumber

/-- What a program does with its record variables.  `b` is the block that the allocator hands out
    during the operation. -/
inductive RecordOp (Var Block : Type) where
  /-- `v = LogRecord_new_text((LogText){ .msg = strdup(s) });` -/
  | newText (v : Var) (s : CStr) (b : Block)
  /-- `v = LogRecord_new_number((LogMetric){ .value = n });` -/
  | newNumber (v : Var) (n : Int)
  /-- `dst = LogRecord_copy(&src, copy_text, copy_number);` -/
  | copy (dst src : Var) (b : Block)
  /-- `LogRecord_destroy(&v, destroy_text, destroy_number);` -/
  | destroy (v : Var)

section Exec

variable {Var : Type} [DecidableEq Var]

abbrev State (Var Block : Type) := ProgramState (model Block) Var (Memory Block)

/-- One call of a generated function, without its observation. -/
def call (s : State Var Block) (op : Op (LogRecord.Payload (model Block)) Var (Memory Block) Unit) :
    Except Fault (State Var Block) := do
  let (s', _) ← LogRecord.step (model Block) .default s op
  .ok s'

def exec (s : State Var Block) : RecordOp Var Block → Except Fault (State Var Block)
  | .newText v text b =>
      let (m, p) := { s.world with next := b }.store text.stored
      call { s with world := m } (.construct v ⟨0, Nat.zero_lt_two⟩ ({ msg := p } : LogText Block))
  | .newNumber v n => call s (.construct v ⟨1, Nat.one_lt_two⟩ ({ value := n } : LogMetric))
  | .copy dst src b =>
      call { s with world := { s.world with next := b } } (.callCopy dst src copyHandlers)
  | .destroy v => call s (.callDestroy v destroyHandlers)

end Exec

end ResourceDemo

end GenericSumType
