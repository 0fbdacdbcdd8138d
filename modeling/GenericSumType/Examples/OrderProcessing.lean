/-
Module: GenericSumType.Examples.OrderProcessing
Layer: Examples
Purpose: `examples/result_demo.c`: results of the steps of an order.  A step is any function that may work
  on the rest of the program state; `OrderResult_and_then` calls it on the payload of an ok result.
Imports: GenericSumType.Header.Program, GenericSumType.Library.CString, GenericSumType.Library.SignedInt
Trusted boundary: human-reviewed transcription of the demo
Main exports: OrderResult, foldOk, foldErr, orderResultFold, unwrapOr, andThen, checkStock, chain
Open obligations: none
-/
import GenericSumType.Header.Program
import GenericSumType.Library.CString
import GenericSumType.Library.SignedInt

namespace GenericSumType

namespace OrderProcessing

open CString SignedInt

inductive TypeText where
  | OrderId
  | OrderError
  | int
deriving DecidableEq, Repr

variable (INT : IntType)

structure OrderId where
  orderId : INT.Value

/-- `reason` points to a string constant. -/
structure OrderError where
  kind : INT.Value
  reason : String

def model : TypeModel TypeText where
  typedefs b := .named b false
  Val
    | .named .OrderId _ => OrderId INT
    | .named .OrderError _ => OrderError INT
    | .named .int _ => INT.Value
    | .pointer _ _ => Unit
  zero
    | .named .OrderId _ => { orderId := INT.zero }
    | .named .OrderError _ => { kind := INT.zero, reason := "" }
    | .named .int _ => INT.zero
    | .pointer _ _ => ()

/-- `ORDER_RESULT` -/
def OrderResult : SumInstance TypeText where
  NAME := "OrderResult"
  VARIANTS :=
    [{ tag := "ok", type := { base := .OrderId, tail := [] } },
      { tag := "err", type := { base := .OrderError, tail := [] } }]
  MATCH_CONST_FN := "OrderResult_fold"
  RET_TYPE := [.name .int]
  nonempty := by simp
  tagsDistinct := by simp
  onParamsVisible := by decide
  copyParamsVisible := by decide

variable {INT}

/-- `OrderResult_new_ok(o)` -/
def newOk (o : OrderId INT) : Except Fault (RawSum (model INT)) :=
  OrderResult.decl.callCtor "OrderResult_new_ok" ⟨.named .OrderId false, o⟩

/-- `OrderResult_new_err(e)` -/
def newErr (e : OrderError INT) : Except Fault (RawSum (model INT)) :=
  OrderResult.decl.callCtor "OrderResult_new_err" ⟨.named .OrderError false, e⟩

/-- What a handler of the fold prints, and the value that it computes then. -/
abbrev Folded (INT : IntType) : Type := List Line × Except Overflow INT.Value

def foldOk (o : OrderId INT) : Folded INT := ([], .ok o.orderId)

def foldErr (e : OrderError INT) : Folded INT :=
  ([⟨"  err(%d): %s\n", [.d e.kind.1, .constant e.reason]⟩], INT.result (-e.kind.1))

/-- The handlers in list order. -/
def folds : (i : Fin OrderResult.size) → OrderResult.Payload (model INT) i → Folded INT
  | ⟨0, _⟩ => foldOk
  | ⟨1, _⟩ => foldErr

/-- `OrderResult_fold(&r, fold_ok, fold_err)` -/
def orderResultFold (printed : List Line) (r : RawSum (model INT)) :
    Except Fault (List Line × Except Overflow INT.Value) := do
  match ← OrderResult.matchConstFn.run OrderResult.decl .default
      (OrderResult.arguments (model INT) (R := fun _ => Except Overflow INT.Value)
        fun i w x => (w ++ (folds i x).1, x, (folds i x).2)) printed r with
  | (done, .value _ value) => .ok (done.world, value)
  | _ => .error .unreachable

/-- `r->tag == OrderResult_ok` -/
def tagIsOk (r : RawSum (model INT)) : Except Fault Bool := do
  let ok ← resolve (OrderResult.decl.enumValue "OrderResult_ok")
  .ok (r.tag = ok)

/-- `r->as.ok` -/
def asOk (r : RawSum (model INT)) : Except Fault (OrderId INT) := do
  let x ← r.as.readMember "ok"
  if same : x.1.unqualified = .named .OrderId false then
    .ok (cast (congrArg (model INT).Val same) x.2)
  else
    .error .typeMismatch

/-- `OrderResult_unwrap_or` -/
def unwrapOr (r : RawSum (model INT)) (dflt : OrderId INT) : Except Fault (OrderId INT) := do
  if ← tagIsOk r then asOk r else .ok dflt

/-- `OrderResult (*f)(const OrderId *)`, with its effect on the rest of the program state. -/
abbrev StepFn (INT : IntType) (σ : Type) : Type :=
  OrderId INT → σ → Except Fault (σ × RawSum (model INT))

variable {σ : Type}

/-- `OrderResult_and_then` -/
def andThen (w : σ) (r : RawSum (model INT)) (f : StepFn INT σ) :
    Except Fault (σ × RawSum (model INT)) := do
  if ← tagIsOk r then do
    let o ← asOk r
    f o w
  else
    .ok (w, r)

def ERR_INSUFFICIENT_STOCK : INT.Value := INT.constant 1

/-- `check_stock`; `%` truncates towards zero. -/
def checkStock : StepFn INT σ := fun o w => do
  let r ←
    if o.orderId.1.tmod 7 = 0 then newErr { kind := ERR_INSUFFICIENT_STOCK, reason := "out of stock" }
    else newOk o
  .ok (w, r)

/-- `r = OrderResult_and_then(&r, f);` for each step -/
def chain (steps : List (StepFn INT σ)) (w : σ) (r : RawSum (model INT)) :
    Except Fault (σ × RawSum (model INT)) :=
  steps.foldlM (fun s f => andThen s.1 s.2 f) (w, r)

end OrderProcessing

end GenericSumType
