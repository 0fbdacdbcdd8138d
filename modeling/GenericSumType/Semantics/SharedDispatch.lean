/-
Module: GenericSumType.Semantics.SharedDispatch
Layer: Semantics
Purpose: Several threads that dispatch on the same contexts.  Each thread has the call chain of
  `Semantics.NestedDispatch` for itself and runs any program of nested dispatches; contexts and locks are
  shared, and any thread may make the next step.  Workers are threads that only dispatch on one shared
  context, with handlers that read and write it and do not dispatch again.
Imports: GenericSumType.Semantics.NestedDispatch
Trusted boundary: human-reviewed interleaving semantics
Main exports: System, System.Step, System.launch, Access, LeafCall, worker, System.start
Open obligations: none
-/
import GenericSumType.Semantics.NestedDispatch

namespace GenericSumType

variable {B : Type} {M : TypeModel B} {ι C V : Type}

/-- The dispatch that takes its lock next, if the innermost frame is one. -/
def lockingCall : List (Frame M C V) → List (ActiveCall M C V)
  | .body d (.lock :: _) :: _ => [d]
  | _ => []

/-- `log` keeps the dispatches in the order in which they took their locks. -/
structure System (ι : Type) (M : TypeModel B) (C V : Type) (L : LockModel C) where
  chains : ι → List (Frame M C V)
  contexts : C → V
  locks : L.State
  log : List (ι × ActiveCall M C V)

namespace System

variable {L : LockModel C}

/-- The system as one of its threads sees it. -/
def view (s : System ι M C V L) (t : ι) : Machine M C V L :=
  { stack := s.chains t
    contexts := s.contexts
    locks := s.locks
    trace := [] }

variable [DecidableEq ι]

/-- The system after thread `t` has become `m`. -/
def after (s : System ι M C V L) (t : ι) (m : Machine M C V L) : System ι M C V L :=
  { chains := Function.update s.chains t m.stack
    contexts := m.contexts
    locks := m.locks
    log := s.log ++ (lockingCall (s.chains t)).map fun d => (t, d) }

variable [DecidableEq B] [DecidableEq C]

/-- Thread `t` makes the next step of its call chain. -/
inductive Step (s : System ι M C V L) : System ι M C V L → Prop where
  | thread {t : ι} {m : Machine M C V L} (step : (s.view t).Step m) : Step s (s.after t m)

def Reaches : System ι M C V L → System ι M C V L → Prop := Relation.ReflTransGen Step

/-- A turn of thread `t`, if it has one. -/
def turn (s : System ι M C V L) (t : ι) : Option (System ι M C V L) :=
  match (s.view t).next with
  | .step m => some (s.after t m)
  | _ => none

/-- A schedule lists the threads that make the steps. -/
def runSchedule (s : System ι M C V L) : List ι → Option (System ι M C V L)
  | [] => some s
  | t :: schedule => (s.turn t).bind fun next => next.runSchedule schedule

/-- Every thread has returned. -/
def Final (s : System ι M C V L) : Prop := ∀ t, s.chains t = []

theorem reaches_of_runSchedule {s s' : System ι M C V L} {schedule : List ι}
    (ran : s.runSchedule schedule = some s') : s.Reaches s' := by
  induction schedule generalizing s with
  | nil =>
      obtain rfl := Option.some.inj ran
      exact .refl
  | cons t schedule ih =>
      obtain ⟨next, first, rest⟩ := Option.bind_eq_some_iff.mp ran
      unfold turn at first
      split at first
      · rename_i m step
        obtain rfl := Option.some.inj first
        exact .head (.thread step) (ih rest)
      · cases first

end System

/-- Threads that run any programs, before their first step. -/
def System.launch (L : LockModel C) (programs : ι → Prog M C V) (contexts : C → V) :
    System ι M C V L :=
  { chains := fun t => [.code none (programs t)]
    contexts := contexts
    locks := L.free
    log := [] }

/-! ### Workers -/

/-- A handler that only reads and writes its context.  A write may change a part of the context; what
    was read before is kept in the continuation. -/
inductive Access (V : Type) where
  | done
  | read (k : V → Access V)
  | write (f : V → V) (next : Access V)

/-- The code of such a handler, each read and each write a step of its own. -/
def Access.toProg (c : C) : Access V → Prog M C V
  | done => .done
  | read k => .update c id fun v => (k v).toProg c
  | write f next => .update c f fun _ => next.toProg c

/-- A handler executed at once. -/
def Access.effect : Access V → V → V
  | done, v => v
  | read k, v => (k v).effect v
  | write f next, v => next.effect (f v)

/-- A `DISPATCH` call whose handlers do not dispatch again. -/
structure LeafCall (M : TypeModel B) (V : Type) where
  U : SumInstance B
  self : DispatchValue U M
  handlers : (i : Fin U.size) → U.Payload M i → Access V

namespace LeafCall

def toCall (c : C) (d : LeafCall M V) : ActiveCall M C V :=
  { U := d.U
    self := d.self
    ctx := c
    handlers := fun i x => (d.handlers i x).toProg c }

/-- The handler that the value selects, nothing when its tag is no enumerator. -/
def code (d : LeafCall M V) : Access V :=
  match d.self with
  | .holds x => d.handlers x.1 x.2
  | .corrupt _ _ _ => .done

/-- The generated function called on its own, with each handler executed at once: the world is the
    shared context. -/
def execute [DecidableEq B] (d : LeafCall M V) (v : V) : Except Fault V := do
  let args : List (Handler M V fun _ => Unit) :=
    d.U.arguments M fun i w x => ((d.handlers i x).effect w, x, ())
  let (done, _) ← d.U.dispatchFn.run d.U.decl .default args v d.self.raw
  .ok done.world

end LeafCall

/-- A thread function that dispatches a list of calls on `c`. -/
def worker (c : C) : List (LeafCall M V) → Prog M C V
  | [] => .done
  | d :: rest => .dispatch d.U d.self c (fun i x => (d.handlers i x).toProg c) (worker c rest)

/-- The workers before their first step. -/
def System.start (L : LockModel C) (c : C) (calls : ι → List (LeafCall M V)) (contexts : C → V) :
    System ι M C V L :=
  { chains := fun t => [.code none (worker c (calls t))]
    contexts := contexts
    locks := L.free
    log := [] }

end GenericSumType
