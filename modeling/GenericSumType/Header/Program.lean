/-
Module: GenericSumType.Header.Program
Layer: Header
Purpose: Programs over variables of one sum type.  A `SumInstance` is one use of the `DEFINE_SUM_*`
  generators on a usable variant list; an `Op` is one call of a generated function, a struct assignment
  or an access through a getter's pointer; `SumInstance.step` executes it on the raw objects.
Imports: GenericSumType.Header.Execution, GenericSumType.Library.StepMachine,
  Mathlib.Logic.Function.Basic
Trusted boundary: human-reviewed semantics of the calling code
Main exports: SumInstance, Op, Obs, SumInstance.step, SumInstance.runProgram
Open obligations: none
-/
import Mathlib.Logic.Function.Basic
import GenericSumType.Header.Execution
import GenericSumType.Library.StepMachine

namespace GenericSumType

/-- One instantiation of the generators.  The variant list is nonempty, its tags are distinct, and no
    handler parameter hides an enumerator; otherwise the expansion is not a C program. -/
structure SumInstance (B : Type) where
  NAME : Ident
  VARIANTS : VariantList B
  MATCH_FN : Ident := NAME ++ "_match"
  MATCH_CONST_FN : Ident := NAME ++ "_match_const"
  DISPATCH_FN : Ident := NAME ++ "_dispatch"
  DESTROY_FN : Ident := NAME ++ "_destroy"
  COPY_FN : Ident := NAME ++ "_copy"
  /-- The texts of `RET_TYPE`, `void` and `CTX_TYPE`. -/
  RET_TYPE : List (TypeToken B) := []
  VOID : List (TypeToken B) := []
  CTX_TYPE : List (TypeToken B) := []
  nonempty : VARIANTS ≠ []
  tagsDistinct : (VARIANTS.map Variant.tag).Nodup
  onParamsVisible : ∀ v ∈ VARIANTS, ∀ w ∈ VARIANTS, NAME ++ "_on_" ++ v.tag ≠ NAME ++ "_" ++ w.tag
  copyParamsVisible :
    ∀ v ∈ VARIANTS, ∀ w ∈ VARIANTS, NAME ++ "_copy_" ++ v.tag ≠ NAME ++ "_" ++ w.tag

namespace SumInstance

variable {B : Type} (U : SumInstance B)

/-- The number of variants. -/
abbrev size : Nat := U.VARIANTS.length

/-- The `i`-th entry of the variant list. -/
def variant (i : Fin U.size) : Variant B := U.VARIANTS[i]

abbrev decl : SumTypeDecl B := defineSumType U.NAME U.VARIANTS
abbrev newGeneric : NewGeneric := defineSumNewGeneric U.NAME U.VARIANTS
abbrev matchFn : SwitchFn B := defineSumMatch U.NAME U.VARIANTS U.MATCH_FN U.RET_TYPE
abbrev matchConstFn : SwitchFn B :=
  defineSumMatchConst U.NAME U.VARIANTS U.MATCH_CONST_FN U.RET_TYPE
abbrev dispatchFn : SwitchFn B :=
  defineSumDispatch U.NAME U.VARIANTS U.DISPATCH_FN U.VOID U.CTX_TYPE
abbrev destroyFn : SwitchFn B := defineSumDestroy U.NAME U.VARIANTS U.DESTROY_FN U.VOID
abbrev copyFn : SwitchFn B := defineSumCopy U.NAME U.VARIANTS U.COPY_FN

/-- The payload type of the `i`-th variant. -/
abbrev payloadType (M : TypeModel B) (i : Fin U.size) : CType B := M.payloadType (U.variant i)

/-- The payload values of the `i`-th variant. -/
abbrev Payload (M : TypeModel B) (i : Fin U.size) : Type := M.Payload (U.payloadType M i)

/-- A family of handlers, one for each variant, as the argument list of a call in list order. -/
def arguments (M : TypeModel B) {σ : Type} {R : CType B → Type}
    (handlers : ∀ i : Fin U.size, σ → U.Payload M i → σ × U.Payload M i × R (U.payloadType M i)) :
    List (Handler M σ R) :=
  List.ofFn fun i => { type := U.payloadType M i, run := handlers i }

end SumInstance

/-- The payload families of a program: `P i` are the payloads of the variant at position `i`. -/
inductive Op {n : Nat} (P : Fin n → Type) (Var σ Ret : Type) where
  /-- `dst = NAME_new_<tag>(x);` -/
  | construct (dst : Var) (i : Fin n) (x : P i)
  /-- `dst = NAME_new_unreachable_(placeholder);` -/
  | constructUnreachable (dst : Var)
  /-- `dst = src;` -/
  | assign (dst src : Var)
  /-- `p = NAME_get_<tag>(&v);` and a look at `*p` when `p` is not `NULL` -/
  | get (v : Var) (i : Fin n)
  /-- the same through `NAME_get_<tag>_const` -/
  | getConst (v : Var) (i : Fin n)
  /-- `p = NAME_get_<tag>(&v); if (p) { ... *p ... }`, where the block may overwrite `*p` -/
  | update (v : Var) (i : Fin n) (block : σ → P i → σ × P i)
  | callMatch (v : Var) (handlers : ∀ i, σ → P i → σ × P i × Ret)
  | callMatchConst (v : Var) (handlers : ∀ i, σ → P i → σ × Ret)
  | callDispatch (v : Var) (handlers : ∀ i, σ → P i → σ × P i)
  | callDestroy (v : Var) (handlers : ∀ i, σ → P i → σ × P i)
  /-- `dst = COPY_FN(&src, ...);` -/
  | callCopy (dst src : Var) (handlers : ∀ i, σ → P i → σ × P i)

/-- What the caller sees of an operation. -/
inductive Obs {B : Type} (M : TypeModel B) (Ret : Type) where
  | quiet
  /-- a getter's pointer: `NULL`, or the member it points to with its current payload -/
  | pointer (p : Option (Ident × M.AnyPayload))
  /-- the handler calls that were made, and the value that came back if there is one -/
  | called (calls : List (HandlerCall M)) (result : Option Ret)

section Step

variable {B : Type} [DecidableEq B] (U : SumInstance B) (M : TypeModel B)
variable {Var σ Ret : Type} [DecidableEq Var]

/-- The variables, `none` while they are uninitialized, and the rest of the program state. -/
structure ProgramState (M : TypeModel B) (Var σ : Type) where
  vars : Var → Option (RawSum M)
  world : σ

namespace ProgramState

variable {M}

def read (s : ProgramState M Var σ) (v : Var) : Except Fault (RawSum M) :=
  match s.vars v with
  | some x => .ok x
  | none => .error .uninitialized

def write (s : ProgramState M Var σ) (v : Var) (x : RawSum M) : ProgramState M Var σ :=
  { s with vars := Function.update s.vars v (some x) }

end ProgramState

/-- The result of a call that hands back `*self` and the rest of the state. -/
def finishCall (s : ProgramState M Var σ) (v : Var) (done : CallState M σ) (result : Option Ret) :
    ProgramState M Var σ × Obs M Ret :=
  ({ s.write v done.self with world := done.world }, .called done.calls result)

namespace SumInstance

/-- A getter call and a look at what its pointer points to. -/
def look (getters : List (Getter B)) (fnName : Ident) (s : ProgramState M Var σ) (v : Var) :
    Except Fault (Option (Ident × M.AnyPayload)) := do
  let self ← s.read v
  match ← U.decl.callGetter getters fnName self with
  | none => .ok none
  | some m => do
      let x ← self.as.readMember m
      .ok (some (m, x))

def step (hooks : CtxHooks σ) (s : ProgramState M Var σ) :
    Op (U.Payload M) Var σ Ret → Except Fault (ProgramState M Var σ × Obs M Ret)
  | .construct dst i x => do
      let r ← U.decl.callCtor (U.NAME ++ "_new_" ++ (U.variant i).tag) ⟨U.payloadType M i, x⟩
      .ok (s.write dst r, .quiet)
  | .constructUnreachable dst => do
      let r ← U.newGeneric.call U.decl M
      .ok (s.write dst r, .quiet)
  | .assign dst src => do
      let x ← s.read src
      .ok (s.write dst x, .quiet)
  | .get v i => do
      let p ← U.look M U.decl.getters (U.NAME ++ "_get_" ++ (U.variant i).tag) s v
      .ok (s, .pointer p)
  | .getConst v i => do
      let p ← U.look M U.decl.constGetters
        (U.NAME ++ "_get_" ++ (U.variant i).tag ++ "_const") s v
      .ok (s, .pointer p)
  | .update v i block => do
      let p ← U.look M U.decl.getters (U.NAME ++ "_get_" ++ (U.variant i).tag) s v
      match p with
      | none => .ok (s, .pointer p)
      | some (m, x) => do
          let self ← s.read v
          let h : Handler M σ (fun _ => Unit) :=
            { type := U.payloadType M i, run := fun w y => ((block w y).1, (block w y).2, ()) }
          let (w, y, _) ← h.apply s.world x
          let as ← U.decl.writeMember m y
          .ok ({ s.write v { self with as := as } with world := w }, .pointer p)
  | .callMatch v handlers => do
      let self ← s.read v
      let args := U.arguments M (R := fun _ => Ret) handlers
      match ← U.matchFn.run U.decl hooks args s.world self with
      | (done, .value _ r) => .ok (finishCall M s v done (some r))
      | _ => .error .unreachable
  | .callMatchConst v handlers => do
      let self ← s.read v
      let args := U.arguments M (R := fun _ => Ret)
        fun i w x => ((handlers i w x).1, x, (handlers i w x).2)
      match ← U.matchConstFn.run U.decl hooks args s.world self with
      | (done, .value _ r) => .ok (finishCall M s v done (some r))
      | _ => .error .unreachable
  | .callDispatch v handlers => do
      let self ← s.read v
      let args := U.arguments M (R := fun _ => Unit)
        fun i w x => ((handlers i w x).1, (handlers i w x).2, ())
      let (done, _) ← U.dispatchFn.run U.decl hooks args s.world self
      .ok (finishCall M s v done none)
  | .callDestroy v handlers => do
      let self ← s.read v
      let args := U.arguments M (R := fun _ => Unit)
        fun i w x => ((handlers i w x).1, (handlers i w x).2, ())
      let (done, _) ← U.destroyFn.run U.decl hooks args s.world self
      .ok (finishCall M s v done none)
  | .callCopy dst src handlers => do
      let self ← s.read src
      let args := U.arguments M (R := fun T => M.Payload T)
        fun i w x => ((handlers i w x).1, x, (handlers i w x).2)
      let (done, returned) ← U.copyFn.run U.decl hooks args s.world self
      let copy ← returned.toSum U.decl
      .ok ({ s.write dst copy with world := done.world }, .called done.calls none)

/-- A whole program from a given state. -/
def runProgram (hooks : CtxHooks σ) (s : ProgramState M Var σ)
    (program : List (Op (U.Payload M) Var σ Ret)) :
    Except Fault (ProgramState M Var σ × List (Obs M Ret)) :=
  StepMachine.run (U.step M hooks) s program

end SumInstance

end Step

end GenericSumType
