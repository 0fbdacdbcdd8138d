/-
Module: GenericSumType.Proofs.CommandLoop
Layer: Proofs
Purpose: Dispatching a queue of commands through the generated functions is running the handlers of the
  commands in order.
Imports: GenericSumType.Semantics.CommandLoop, GenericSumType.Proofs.Alignment
Trusted boundary: none
Main exports: dispatchCommand_eq, dispatchAll_eq_run
Open obligations: none
-/
import GenericSumType.Semantics.CommandLoop
import GenericSumType.Proofs.Alignment

namespace GenericSumType

namespace SumInstance

variable {B : Type} [DecidableEq B] (U : SumInstance B) (M : TypeModel B) {ε Ctx Line : Type}
variable (handlers : ContextHandlers (U.Payload M) ε Ctx Line)

/-- The generated dispatch calls the handler of the command. -/
theorem dispatchCommand_eq (w : Session ε Ctx Line) (c : (i : Fin U.size) × U.Payload M i) :
    U.dispatchCommand M handlers w c = .ok (handlers.handle c.1 w c.2) := by
  rw [dispatchCommand, U.callCtor_encode M c.1 c.2, ok_bind]
  have called := U.run_dispatch (M := M) (R := fun _ => Unit) .default
    (fun i w x => (handlers.handle i w x, x, ())) w c
  change (U.dispatchFn.run U.decl .default _ w (U.encode M c) >>= _) = _
  rw [called]
  rfl

/-- After an undefined access nothing more happens. -/
theorem dispatchFrom_error (commands : List ((i : Fin U.size) × U.Payload M i)) (e : ε) :
    commands.foldlM (U.dispatchCommand M handlers) (.error e) = .ok (.error e) := by
  induction commands with
  | nil => rfl
  | cons c commands ih =>
      rw [List.foldlM_cons, dispatchCommand_eq, ok_bind]
      exact ih

theorem dispatchFrom_eq_run (commands : List ((i : Fin U.size) × U.Payload M i)) (ctx : Ctx)
    (printed : List Line) :
    commands.foldlM (U.dispatchCommand M handlers) (.ok (ctx, printed)) =
      .ok ((StepMachine.run handlers.step ctx commands).map fun p => (p.1, printed ++ p.2)) := by
  induction commands generalizing ctx printed with
  | nil =>
      rw [StepMachine.run_nil, Except.map, List.append_nil]
      rfl
  | cons c commands ih =>
      rw [List.foldlM_cons, dispatchCommand_eq, ok_bind]
      cases first : handlers c.1 c.2 ctx with
      | error e =>
          have failed : handlers.handle c.1 (.ok (ctx, printed)) c.2 = .error e := by
            change (handlers c.1 c.2 ctx >>= _) = _
            rw [first]
            rfl
          rw [failed, dispatchFrom_error]
          simp only [StepMachine.run, ContextHandlers.step, first, Except.map]
      | ok p =>
          have handled : handlers.handle c.1 (.ok (ctx, printed)) c.2 =
              .ok (p.1, printed ++ [p.2]) := by
            change (handlers c.1 c.2 ctx >>= _) = _
            rw [first]
            rfl
          rw [handled, ih]
          simp only [StepMachine.run, ContextHandlers.step, first]
          cases StepMachine.run handlers.step p.1 commands with
          | error e => rfl
          | ok q => simp [Except.map]

/-- A queue of commands is a run of the handlers; the generated functions add no failure. -/
theorem dispatchAll_eq_run (commands : List ((i : Fin U.size) × U.Payload M i)) (ctx : Ctx) :
    U.dispatchAll M handlers ctx commands = .ok (StepMachine.run handlers.step ctx commands) := by
  rw [dispatchAll, dispatchFrom_eq_run]
  cases StepMachine.run handlers.step ctx commands with
  | error e => rfl
  | ok p => rfl

end SumInstance

end GenericSumType
