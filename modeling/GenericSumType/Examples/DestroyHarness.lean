/-
Module: GenericSumType.Examples.DestroyHarness
Layer: Examples
Purpose: `verify/cbmc_destroy_harness.c`: messages that own a heap string, whose destroy handler frees the
  string and keeps the pointer, and the three functions that are checked.  A function is a list of the
  statements that the harness is made of; a failed `malloc` returns from it.
Imports: GenericSumType.Header.Program, GenericSumType.Library.FreeLedger
Trusted boundary: human-reviewed transcription of the harness; the local `p` is part of the statement that
  allocates
Main exports: Msg, destroyText, HarnessStmt, runFunction, safeCase, leakedCase, doubleFreeCase
Open obligations: none
-/
import GenericSumType.Header.Program
import GenericSumType.Library.FreeLedger

namespace GenericSumType

namespace DestroyHarness

open BlockHeap (Memory)

inductive TypeText where
  | char
  | void
deriving DecidableEq, Repr

/-- A `char *` points to a block or is `NULL`. -/
def model : TypeModel TypeText where
  typedefs b := .named b false
  Val
    | .pointer _ _ => Option Nat
    | .named _ _ => Unit
  zero
    | .pointer _ _ => none
    | .named _ _ => ()

/-- `MSG_VARIANTS` -/
def Msg : SumInstance TypeText where
  NAME := "Msg"
  VARIANTS := [{ tag := "text", type := { base := .char, tail := [.star] } }]
  VOID := [.name .void]
  nonempty := by simp
  tagsDistinct := by simp
  onParamsVisible := by decide
  copyParamsVisible := by decide

/-- `free(*s);` -/
def destroyText (m : Memory Nat) (s : Option Nat) : Memory Nat × Option Nat := (m.free s, s)

def destroyHandlers : (i : Fin Msg.size) → Memory Nat → Msg.Payload model i →
    Memory Nat × Msg.Payload model i
  | ⟨0, _⟩ => destroyText

/-- `"hello"` with its terminator -/
def hello : List UInt8 := [104, 101, 108, 108, 111, 0]

/-- The statements of the harness functions. -/
inductive HarnessStmt (Var : Type) where
  /-- `char *p = malloc(6); if (p == NULL) return; memcpy(p, "hello", 6); Msg v = Msg_new_text(p);` -/
  | newText (v : Var) (succeeds : Bool)
  /-- `Msg dst = src;` -/
  | assign (dst src : Var)
  /-- `Msg_auto_destroy(&v);`, whether the function calls it or a cleanup attribute does -/
  | autoDestroy (v : Var)

variable {Var : Type} [DecidableEq Var]

abbrev State (Var : Type) := ProgramState model Var (Memory Nat)

/-- One call of a generated function, without its observation. -/
def call (s : State Var) (op : Op (Msg.Payload model) Var (Memory Nat) Unit) :
    Except Fault (State Var) := do
  let (s', _) ← Msg.step model .default s op
  .ok s'

def runFunction (s : State Var) : List (HarnessStmt Var) → Except Fault (State Var)
  | [] => .ok s
  | .newText _ false :: _ => .ok s
  | .newText v true :: rest => do
      let (m, p) := s.world.malloc hello
      let s ← call { s with world := m } (.construct v ⟨0, Nat.one_pos⟩ p)
      runFunction s rest
  | .assign dst src :: rest => do
      let s ← call s (.assign dst src)
      runFunction s rest
  | .autoDestroy v :: rest => do
      let s ← call s (.callDestroy v destroyHandlers)
      runFunction s rest

/-- Nothing is constructed and nothing is allocated. -/
def entered : State Var where
  vars _ := none
  world := { blocks := ∅, next := 0, violations := [] }

/-- The variables of the harness functions. -/
inductive HarnessVar where
  | a
  | b
deriving DecidableEq, Repr

/-- `safe_case` -/
def safeCase (succeeds : Bool) : List (HarnessStmt HarnessVar) :=
  [.newText .a succeeds, .autoDestroy .a]

/-- `leaked_case` -/
def leakedCase (succeeds : Bool) : List (HarnessStmt HarnessVar) := [.newText .a succeeds]

/-- `double_free_case` -/
def doubleFreeCase (succeeds : Bool) : List (HarnessStmt HarnessVar) :=
  [.newText .a succeeds, .assign .b .a, .autoDestroy .b, .autoDestroy .a]

end DestroyHarness

end GenericSumType
