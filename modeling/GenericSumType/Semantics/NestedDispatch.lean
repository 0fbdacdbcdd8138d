/-
Module: GenericSumType.Semantics.NestedDispatch
Layer: Semantics
Purpose: One thread that dispatches, with handlers that may dispatch again.  A handler is a finite program
  of context updates and further `DISPATCH` calls; the machine executes the statements of the generated
  body one at a time, so that taking a lock can block, and keeps the call chain on a stack.  Which handler
  a switch calls is computed by the generated function itself.
Imports: GenericSumType.Spec.Coproduct, GenericSumType.Library.LockModel
Trusted boundary: human-reviewed semantics of the generated `DISPATCH` body and of its callers
Main exports: DispatchValue, Prog, Prog.Climbs, Frame, Event, Machine, Machine.next, Machine.Step,
  Machine.start
Open obligations: none
-/
import GenericSumType.Spec.Coproduct
import GenericSumType.Library.LockModel

namespace GenericSumType

variable {B : Type} {M : TypeModel B} {C V : Type}

/-- A value that `DISPATCH` may be given: one that holds a variant, or one whose tag was overwritten
    behind the library's back and is no enumerator. -/
inductive DispatchValue (U : SumInstance B) (M : TypeModel B) where
  | holds (c : Coproduct (U.Payload M))
  | corrupt (tag : Int) (as : RawUnion M) (outside : ∀ i : Fin U.size, tag ≠ ((i : Nat) : Int))

def DispatchValue.raw {U : SumInstance B} : DispatchValue U M → RawSum M
  | holds c => U.encode M c
  | corrupt tag as _ => { tag := tag, as := as }

/-- Handler code and calling code: `C` are the contexts, `V` what a context holds. -/
inductive Prog (M : TypeModel B) (C V : Type) where
  | done
  /-- `*target = f(*target);`, and go on with the old contents -/
  | update (target : C) (f : V → V) (next : V → Prog M C V)
  /-- `DISPATCH_FN(&self, ctx, handlers...);` -/
  | dispatch (U : SumInstance B) (self : DispatchValue U M) (ctx : C)
      (handlers : (i : Fin U.size) → U.Payload M i → Prog M C V) (next : Prog M C V)

/-- A handler of a dispatch on `owner` dispatches only on contexts of higher rank, and so do the handlers
    of these dispatches.  Code without an owner may dispatch on every context. -/
inductive Prog.Climbs {ρ : Type} [LT ρ] (rank : C → ρ) : Option C → Prog M C V → Prop where
  | done {owner : Option C} : Climbs rank owner .done
  | update {owner : Option C} {target : C} {f : V → V} {next : V → Prog M C V}
      (later : ∀ v, Climbs rank owner (next v)) : Climbs rank owner (.update target f next)
  | dispatch {owner : Option C} {U : SumInstance B} {self : DispatchValue U M} {ctx : C}
      {handlers : (i : Fin U.size) → U.Payload M i → Prog M C V} {next : Prog M C V}
      (above : ∀ c, owner = some c → rank c < rank ctx)
      (inside : ∀ i x, Climbs rank (some ctx) (handlers i x)) (later : Climbs rank owner next) :
      Climbs rank owner (.dispatch U self ctx handlers next)

/-- A call of a generated `DISPATCH` function that has not returned yet. -/
structure ActiveCall (M : TypeModel B) (C V : Type) where
  U : SumInstance B
  self : DispatchValue U M
  ctx : C
  handlers : (i : Fin U.size) → U.Payload M i → Prog M C V

/-- The code of the handler that a case calls.  It is what the call of `Header.Execution` returns when
    each handler hands back its own code. -/
def ActiveCall.handlerCode [DecidableEq B] (d : ActiveCall M C V) (body : CaseBody) :
    Except Fault (Prog M C V) := do
  let args : List (Handler M Unit fun _ => Prog M C V) :=
    d.U.arguments M fun i _ x => ((), x, d.handlers i x)
  let (_, code) ← d.U.dispatchFn.callHandler args body
    { world := (), self := d.self.raw, calls := [] }
  .ok code.2

/-- What is left of a body after the handler of a case returned: `break` goes on behind the switch, the
    other cases leave the function. -/
def CaseBody.restOfBody : CaseBody → List BodyStmt → List BodyStmt
  | callBreak _ _, rest => rest
  | _, _ => []

/-- One entry of the call chain: code of a handler (or of the caller, without an owner), or a dispatch
    with the statements it has still to execute. -/
inductive Frame (M : TypeModel B) (C V : Type) where
  | code (owner : Option C) (p : Prog M C V)
  | body (d : ActiveCall M C V) (rest : List BodyStmt)

inductive Event (C : Type) where
  /-- a `DISPATCH` call on `ctx` begins -/
  | enter (ctx : C)
  | lock (ctx : C)
  | unlock (ctx : C)
  /-- an update made by a handler of a dispatch on `owner`, or by the caller itself -/
  | act (owner : Option C) (target : C)
deriving DecidableEq, Repr

structure Machine (M : TypeModel B) (C V : Type) (L : LockModel C) where
  stack : List (Frame M C V)
  contexts : C → V
  locks : L.State
  trace : List (Event C)

/-- What a machine does next. -/
inductive Next (M : TypeModel B) (C V : Type) (L : LockModel C) where
  | finished
  | blocked
  | fault (e : Fault)
  | step (m : Machine M C V L)

namespace Machine

variable [DecidableEq B] [DecidableEq C] {L : LockModel C}

/-- One step of the innermost frame. -/
def next (m : Machine M C V L) : Next M C V L :=
  match m.stack with
  | [] => .finished
  | .code _ .done :: rest => .step { m with stack := rest }
  | .code owner (.update target f k) :: rest =>
      .step
        { m with
          stack := .code owner (k (m.contexts target)) :: rest
          contexts := Function.update m.contexts target (f (m.contexts target))
          trace := m.trace ++ [.act owner target] }
  | .code owner (.dispatch U self ctx handlers k) :: rest =>
      .step
        { m with
          stack :=
            .body { U := U, self := self, ctx := ctx, handlers := handlers } U.dispatchFn.body ::
              .code owner k :: rest
          trace := m.trace ++ [.enter ctx] }
  | .body _ [] :: rest => .step { m with stack := rest }
  | .body d (.lock :: after) :: rest =>
      match L.acquire d.ctx m.locks with
      | none => .blocked
      | some locks =>
          .step
            { m with
              stack := .body d after :: rest
              locks := locks
              trace := m.trace ++ [.lock d.ctx] }
  | .body d (.unlock :: after) :: rest =>
      .step
        { m with
          stack := .body d after :: rest
          locks := L.release d.ctx m.locks
          trace := m.trace ++ [.unlock d.ctx] }
  | .body _ (.unreachable :: _) :: _ => .fault .unreachable
  | .body d (.switch :: after) :: rest =>
      match d.U.dispatchFn.select d.U.decl d.self.raw.tag with
      | none => .step { m with stack := .body d after :: rest }
      | some c =>
          match d.handlerCode c.body with
          | .error e => .fault e
          | .ok p =>
              .step
                { m with stack := .code (some d.ctx) p :: .body d (c.body.restOfBody after) :: rest }

def Step (m m' : Machine M C V L) : Prop := m.next = .step m'

/-- A program before its first step: no lock is held and nothing has happened. -/
def start (p : Prog M C V) (contexts : C → V) : Machine M C V L :=
  { stack := [.code none p]
    contexts := contexts
    locks := L.free
    trace := [] }

def Reaches (m m' : Machine M C V L) : Prop := Relation.ReflTransGen Step m m'

end Machine

end GenericSumType
