/-
Module: GenericSumType.Examples.ThreadsafeDispatchDemo
Layer: Examples
Purpose: `examples/threadsafe_dispatch_demo.c`: a counter shared by workers that apply increment and
  decrement commands to it.  The shared context is the `counter` field; its `mutex` field is the lock of
  the system.
Imports: GenericSumType.Semantics.SharedDispatch, GenericSumType.Library.SignedInt
Trusted boundary: human-reviewed transcription of the demo
Main exports: LongType, CounterCmd, onIncrement, onDecrement, apply, workerInc, workerDec, spawned,
  mainReturns
Open obligations: none
-/
import GenericSumType.Semantics.SharedDispatch
import GenericSumType.Library.SignedInt

namespace GenericSumType

namespace ThreadsafeDispatchDemo

inductive TypeText where
  | CmdIncrement
  | CmdDecrement
  | Counter
  | void
deriving DecidableEq, Repr

/-- The range of `long`, and what a computation leaves behind whose exact result is outside of it. -/
structure LongType extends SignedInt.IntType where
  overflow : Int → Int

/-- The result of an operation whose exact result is `x`. -/
def LongType.result (L : LongType) (x : Int) : Int := if L.InRange x then x else L.overflow x

structure CmdIncrement where
  amount : Int
deriving DecidableEq, Repr

structure CmdDecrement where
  amount : Int
deriving DecidableEq, Repr

def model : TypeModel TypeText where
  typedefs b := .named b false
  Val
    | .named .CmdIncrement _ => CmdIncrement
    | .named .CmdDecrement _ => CmdDecrement
    | _ => Unit
  zero
    | .named .CmdIncrement _ => { amount := 0 }
    | .named .CmdDecrement _ => { amount := 0 }
    | .named .Counter _ => ()
    | .named .void _ => ()
    | .pointer _ _ => ()

/-- `COUNTER_CMD` -/
def CounterCmd : SumInstance TypeText where
  NAME := "CounterCmd"
  VARIANTS :=
    [{ tag := "increment", type := { base := .CmdIncrement, tail := [] } },
      { tag := "decrement", type := { base := .CmdDecrement, tail := [] } }]
  DISPATCH_FN := "CounterCmd_apply"
  VOID := [.name .void]
  CTX_TYPE := [.name .Counter]
  nonempty := by simp
  tagsDistinct := by simp
  onParamsVisible := by decide
  copyParamsVisible := by decide

variable (L : LongType)

/-- `ctx->counter += c->amount;` -/
def onIncrement (c : CmdIncrement) : Access Int :=
  .read fun counter => .write (fun _ => L.result (counter + c.amount)) .done

/-- `ctx->counter -= c->amount;` -/
def onDecrement (c : CmdDecrement) : Access Int :=
  .read fun counter => .write (fun _ => L.result (counter - c.amount)) .done

/-- The handlers in list order. -/
def handlers : (i : Fin CounterCmd.size) → CounterCmd.Payload model i → Access Int
  | ⟨0, _⟩ => onIncrement L
  | ⟨1, _⟩ => onDecrement L

/-- A `CounterCmd` value. -/
abbrev Command : Type := Coproduct (CounterCmd.Payload model)

/-- `CounterCmd_new_increment((CmdIncrement){ .amount = n })` -/
def increment (n : Int) : Command := ⟨⟨0, Nat.zero_lt_two⟩, ({ amount := n } : CmdIncrement)⟩

/-- `CounterCmd_new_decrement((CmdDecrement){ .amount = n })` -/
def decrement (n : Int) : Command := ⟨⟨1, Nat.one_lt_two⟩, ({ amount := n } : CmdDecrement)⟩

/-- `CounterCmd_apply(&cmd, ctx, on_increment, on_decrement);` -/
def apply (cmd : Command) : LeafCall model Int :=
  { U := CounterCmd
    self := .holds cmd
    handlers := handlers L }

/-! ### The threads of `main` -/

def ITER_PER_THREAD : Nat := 100000

/-- The commands of `worker_inc`, which executes its loop `iterations` times. -/
def workerInc (iterations : Nat) : List Command := List.replicate iterations (increment 1)

def workerDec (iterations : Nat) : List Command := List.replicate iterations (decrement 1)

/-- The elements of `inc` and of `dec`, which both have length `n`. -/
def threads (n iterations : Nat) : Fin n ⊕ Fin n → List Command
  | .inl _ => workerInc iterations
  | .inr _ => workerDec iterations

/-- The created threads before their first step, for the lock behind the hooks: `ctx.counter` is 0. -/
def spawned (hooks : LockModel Unit) (n iterations : Nat) :
    System (Fin n ⊕ Fin n) model Unit Int hooks :=
  System.start hooks () (fun t => (threads n iterations t).map (apply L)) fun _ => 0

/-- What `main` returns for the counter that it finds after it joined the threads. -/
def mainReturns (counter : Int) : Int := if counter = 0 then 0 else 1

end ThreadsafeDispatchDemo

end GenericSumType
