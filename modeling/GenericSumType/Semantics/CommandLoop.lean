/-
Module: GenericSumType.Semantics.CommandLoop
Layer: Semantics
Purpose: A program that builds commands and dispatches them one after another on one context, as the
  demos and their tests do.  The handlers read their command and work on the context; a handler may
  run into an undefined access, and nothing is defined after that.
Imports: GenericSumType.Header.Program
Trusted boundary: human-reviewed semantics of the calling code
Main exports: ContextHandlers, Session, SumInstance.dispatchCommand, SumInstance.dispatchAll
Open obligations: none
-/
import GenericSumType.Header.Program

namespace GenericSumType

/-- A handler `void on_tag(P *c, Ctx *ctx)` for each position: the new context and what was printed. -/
abbrev ContextHandlers {n : Nat} (P : Fin n → Type) (ε Ctx Line : Type) : Type :=
  (i : Fin n) → P i → Ctx → Except ε (Ctx × Line)

/-- The context and everything printed so far, or the first undefined access. -/
abbrev Session (ε Ctx Line : Type) : Type := Except ε (Ctx × List Line)

section Handle

variable {n : Nat} {P : Fin n → Type} {ε Ctx Line : Type}

/-- A handler call in a session. -/
def ContextHandlers.handle (handlers : ContextHandlers P ε Ctx Line) (i : Fin n)
    (w : Session ε Ctx Line) (x : P i) : Except ε (Ctx × List Line) := do
  let (ctx, printed) ← w
  let (ctx', line) ← handlers i x ctx
  .ok (ctx', printed ++ [line])

/-- One command on a context. -/
def ContextHandlers.step (handlers : ContextHandlers P ε Ctx Line) (ctx : Ctx)
    (c : (i : Fin n) × P i) : Except ε (Ctx × Line) :=
  handlers c.1 c.2 ctx

end Handle

namespace SumInstance

variable {B : Type} [DecidableEq B] (U : SumInstance B) (M : TypeModel B) {ε Ctx Line : Type}

/-- `NAME cmd = NAME_new_<tag>(x); DISPATCH_FN(&cmd, ctx, ...);` -/
def dispatchCommand (handlers : ContextHandlers (U.Payload M) ε Ctx Line)
    (w : Session ε Ctx Line) (c : (i : Fin U.size) × U.Payload M i) :
    Except Fault (Session ε Ctx Line) := do
  let cmd ← U.decl.callCtor (U.NAME ++ "_new_" ++ (U.variant c.1).tag) ⟨U.payloadType M c.1, c.2⟩
  let args := U.arguments M (R := fun _ => Unit) fun i w x => (handlers.handle i w x, x, ())
  let (done, _) ← U.dispatchFn.run U.decl .default args w cmd
  .ok done.world

/-- The commands of a queue in order. -/
def dispatchAll (handlers : ContextHandlers (U.Payload M) ε Ctx Line) (ctx : Ctx)
    (commands : List ((i : Fin U.size) × U.Payload M i)) : Except Fault (Session ε Ctx Line) :=
  commands.foldlM (U.dispatchCommand M handlers) (.ok (ctx, []))

end SumInstance

end GenericSumType
