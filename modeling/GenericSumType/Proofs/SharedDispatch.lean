/-
Module: GenericSumType.Proofs.SharedDispatch
Layer: Proofs
Purpose: Workers that dispatch on one shared context are serialised by its mutex.  The call chain of a
  worker is always that of one of seven phases; read through the phases, the interleaving of micro-steps
  simulates the threads of `Library.MutexSerial`, whose serialisation theorem then speaks about the
  generated `DISPATCH` functions.
Imports: GenericSumType.Semantics.SharedDispatch, GenericSumType.Proofs.LockDiscipline,
  GenericSumType.Library.MutexSerial
Trusted boundary: none
Main exports: execute_eq, Phase, Micro, micro_of_step, Simulates, Simulates.micro,
  enabled_of_not_final, serial_of_final
Open obligations: none
-/
import GenericSumType.Semantics.SharedDispatch
import GenericSumType.Proofs.LockDiscipline
import GenericSumType.Library.MutexSerial

namespace GenericSumType

variable {B : Type} {M : TypeModel B} {ι C V : Type}

/-! ### The handlers as jobs -/

/-- One read or write of a handler. -/
def Access.step : Access V → V → Option (Access V × V)
  | done, _ => none
  | read k, v => some (k v, v)
  | write f next, v => some (next, f v)

def leafCode (M : TypeModel B) (V : Type) : JobCode (LeafCall M V) (Access V) V where
  start := LeafCall.code
  step := Access.step
  effect := Access.effect
  effect_step := by
    intro code code' v v' next
    cases code with
    | done => cases next
    | read k =>
        cases next
        rfl
    | write f next' =>
        cases next
        rfl
  effect_end := by
    intro code v ended
    cases code with
    | done => rfl
    | read k => cases ended
    | write f next => cases ended

/-- The generated function on its own applies the handler that the value selects. -/
theorem execute_eq [DecidableEq B] (d : LeafCall M V) (v : V) :
    d.execute v = .ok (d.code.effect v) := by
  rcases d with ⟨U, self, handlers⟩
  cases self with
  | holds c =>
      have ran := U.run_dispatch (R := fun _ => Unit) .default
        (fun i w x => ((handlers i x).effect w, x, ())) v c
      simp only [LeafCall.execute, DispatchValue.raw, ran, ok_bind]
      rfl
  | corrupt tag as outside =>
      have skipped := U.aligned_dispatch.runStmts_switch_invalid .default
        (U.arguments M (R := fun _ => Unit) fun i w x => ((handlers i x).effect w, x, ()))
        (s := { world := v, self := { tag := tag, as := as }, calls := [] }) outside [.unlock]
      have ran : U.dispatchFn.run U.decl .default
          (U.arguments M (R := fun _ => Unit) fun i w x => ((handlers i x).effect w, x, ())) v
          { tag := tag, as := as } =
            .ok ({ world := v, self := { tag := tag, as := as }, calls := [] }, .nothing) := skipped
      simp only [LeafCall.execute, DispatchValue.raw, ran, ok_bind]
      rfl

/-! ### The phases of a worker -/

/-- Where a worker is: between two dispatches, or somewhere in the body of one. -/
inductive Phase (M : TypeModel B) (V : Type) where
  | between (rest : List (LeafCall M V))
  | entered (d : LeafCall M V) (rest : List (LeafCall M V))
  | locked (d : LeafCall M V) (rest : List (LeafCall M V))
  | running (d : LeafCall M V) (a : Access V) (rest : List (LeafCall M V))
  | releasing (d : LeafCall M V) (rest : List (LeafCall M V))
  | leaving (d : LeafCall M V) (rest : List (LeafCall M V))
  | ended

namespace Phase

/-- The call chain of a phase. -/
def stack (c : C) : Phase M V → List (Frame M C V)
  | between rest => [.code none (worker c rest)]
  | entered d rest => [.body (d.toCall c) [.lock, .switch, .unlock], .code none (worker c rest)]
  | locked d rest => [.body (d.toCall c) [.switch, .unlock], .code none (worker c rest)]
  | running d a rest =>
      [.code (some c) (a.toProg c), .body (d.toCall c) [.unlock], .code none (worker c rest)]
  | releasing d rest => [.body (d.toCall c) [.unlock], .code none (worker c rest)]
  | leaving d rest => [.body (d.toCall c) [], .code none (worker c rest)]
  | ended => []

/-- The calls that have not taken the lock yet. -/
def pending : Phase M V → List (LeafCall M V)
  | entered d rest => d :: rest
  | between rest | locked _ rest | running _ _ rest | releasing _ rest | leaving _ rest => rest
  | ended => []

/-- Between lock and unlock: the call, and what its handler has still to do. -/
def inside : Phase M V → Option (LeafCall M V × Access V)
  | locked d _ => some (d, d.code)
  | running d a _ => some (d, a)
  | releasing d _ => some (d, .done)
  | _ => none

/-- The call whose lock is taken next. -/
def locking : Phase M V → List (LeafCall M V)
  | entered d _ => [d]
  | _ => []

theorem lockingCall_stack (c : C) (phase : Phase M V) :
    lockingCall (phase.stack c) = phase.locking.map fun d => d.toCall c := by
  cases phase <;> rfl

theorem eq_ended_of_stack {c : C} {phase : Phase M V} (empty : phase.stack c = []) :
    phase = ended := by
  cases phase with
  | ended => rfl
  | _ => cases empty

end Phase

/-- The steps of a worker: its phase, the shared context and whether the lock is held. -/
inductive Micro : Phase M V → V → Bool → Phase M V → V → Bool → Prop where
  | enter {d : LeafCall M V} {rest : List (LeafCall M V)} {v : V} {held : Bool} :
      Micro (.between (d :: rest)) v held (.entered d rest) v held
  | finish {v : V} {held : Bool} : Micro (.between []) v held .ended v held
  | lock {d : LeafCall M V} {rest : List (LeafCall M V)} {v : V} :
      Micro (.entered d rest) v false (.locked d rest) v true
  | call {d : LeafCall M V} {rest : List (LeafCall M V)} {v : V} {held : Bool} :
      Micro (.locked d rest) v held (.running d d.code rest) v held
  /-- no handler runs: the tag is no enumerator -/
  | skip {d : LeafCall M V} {rest : List (LeafCall M V)} {v : V} {held : Bool}
      (nothing : d.code = .done) : Micro (.locked d rest) v held (.releasing d rest) v held
  | read {d : LeafCall M V} {k : V → Access V} {rest : List (LeafCall M V)} {v : V} {held : Bool} :
      Micro (.running d (.read k) rest) v held (.running d (k v) rest) v held
  | write {d : LeafCall M V} {f : V → V} {next : Access V} {rest : List (LeafCall M V)} {v : V}
      {held : Bool} : Micro (.running d (.write f next) rest) v held (.running d next rest) (f v) held
  | finishHandler {d : LeafCall M V} {rest : List (LeafCall M V)} {v : V} {held : Bool} :
      Micro (.running d .done rest) v held (.releasing d rest) v held
  | unlock {d : LeafCall M V} {rest : List (LeafCall M V)} {v : V} {held : Bool} :
      Micro (.releasing d rest) v held (.leaving d rest) v false
  | leave {d : LeafCall M V} {rest : List (LeafCall M V)} {v : V} {held : Bool} :
      Micro (.leaving d rest) v held (.between rest) v held

/-- What lies under a running handler of a worker. -/
theorem under_handler (c : C) (d : LeafCall M V) (rest : List (LeafCall M V)) :
    Under (some c) [.body (d.toCall c) [.unlock], .code none (worker c rest)] :=
  Under.handler (d := d.toCall c) .caller

section Steps

variable [DecidableEq B] [DecidableEq C] {c : C}

/-- Every step of a worker is a step of its phase. -/
theorem micro_of_step {m m' : Machine M C V (.mutex C)} {phase : Phase M V}
    (top : m.stack = phase.stack c) (step : m.Step m') :
    ∃ phase' : Phase M V, m'.stack = phase'.stack c ∧
      Micro phase (m.contexts c) (LockModel.mutexHeld m.locks c)
        phase' (m'.contexts c) (LockModel.mutexHeld m'.locks c) := by
  cases phase with
  | between rest =>
      cases rest with
      | nil =>
          obtain rfl := step.unique (Move.returned top .caller).step
          exact ⟨.ended, rfl, .finish⟩
      | cons d rest =>
          obtain rfl := step.unique (Move.entered (d := d.toCall c) top .caller).step
          exact ⟨.entered d rest, rfl, .enter⟩
  | entered d rest =>
      cases taken : (LockModel.mutex C).acquire (d.toCall c).ctx m.locks with
      | none =>
          simp only [Machine.Step, Machine.next, top, Phase.stack, taken] at step
          cases step
      | some locks =>
          obtain rfl := step.unique (Move.locked top .caller taken).step
          obtain ⟨free, held⟩ := LockModel.mutexHeld_of_acquire taken
          refine ⟨.locked d rest, rfl, ?_⟩
          have lock : Micro (.entered d rest) (m.contexts c) false (.locked d rest)
            (m.contexts c) true := .lock
          rw [← free, ← held] at lock
          exact lock
  | locked d rest =>
      rcases d with ⟨U, self, handlers⟩
      cases self with
      | holds x =>
          obtain rfl := step.unique (Move.called (c := x) top .caller rfl).step
          exact ⟨.running ⟨U, .holds x, handlers⟩ (handlers x.1 x.2) rest, rfl, .call⟩
      | corrupt tag as outside =>
          obtain rfl := step.unique (Move.skipped top .caller rfl).step
          exact ⟨.releasing ⟨U, .corrupt tag as outside, handlers⟩ rest, rfl, .skip rfl⟩
  | running d a rest =>
      have below := under_handler c d rest
      cases a with
      | done =>
          obtain rfl := step.unique (Move.returned top below).step
          exact ⟨.releasing d rest, rfl, .finishHandler⟩
      | read k =>
          obtain rfl := step.unique (Move.updated top below).step
          refine ⟨.running d (k (m.contexts c)) rest, rfl, ?_⟩
          dsimp only
          rw [Function.update_self]
          exact .read
      | write f next =>
          obtain rfl := step.unique (Move.updated top below).step
          refine ⟨.running d next rest, rfl, ?_⟩
          dsimp only
          rw [Function.update_self]
          exact .write
  | releasing d rest =>
      obtain rfl := step.unique (Move.unlocked top .caller).step
      refine ⟨.leaving d rest, rfl, ?_⟩
      have unlock : Micro (.releasing d rest) (m.contexts c) (LockModel.mutexHeld m.locks c)
        (.leaving d rest) (m.contexts c) false := .unlock
      rw [← LockModel.mutexHeld_release c m.locks] at unlock
      exact unlock
  | leaving d rest =>
      obtain rfl := step.unique (Move.left top .caller).step
      exact ⟨.between rest, rfl, .leave⟩
  | ended =>
      simp only [Machine.Step, Machine.next, top, Phase.stack] at step
      cases step

/-- A worker that has not ended makes a step, unless it waits for a lock that is held. -/
theorem enabled_of_phase {m : Machine M C V (.mutex C)} {phase : Phase M V}
    (top : m.stack = phase.stack c) (alive : phase ≠ .ended)
    (free : phase.inside = none → LockModel.mutexHeld m.locks c = false) : ∃ m', m.Step m' := by
  have shape : Shape m.stack := by
    rw [top]
    cases phase with
    | between rest => exact .code .caller
    | running d a rest => exact .code (under_handler c d rest)
    | ended => exact .finished
    | _ => exact .body (by simp) .caller
  by_contra still
  have busy : m.stack ≠ [] := by
    intro empty
    exact alive (Phase.eq_ended_of_stack (top.symm.trans empty))
  obtain ⟨d, owner, p, rest, waits, _, refused⟩ := top_of_stuck shape busy (not_exists.mp still)
  cases phase with
  | entered d' rest' =>
      rw [top] at waits
      cases waits
      obtain ⟨locks, taken⟩ := LockModel.acquire_of_not_held (free rfl)
      exact absurd (refused.symm.trans taken) (by simp)
  | between rest' =>
      rw [top] at waits
      cases waits
  | running d' a rest' =>
      rw [top] at waits
      cases waits
  | ended => exact absurd rfl alive
  | _ =>
      rw [top] at waits
      simp [Phase.stack] at waits

end Steps

/-! ### The simulation -/

section Simulation

variable [DecidableEq C] [DecidableEq ι] (c : C)

/-- The system read through the phases of its workers, against the threads of the library. -/
structure Simulates (phase : ι → Phase M V) (s : System ι M C V (.mutex C))
    (a : JobCode.MutexState ι (LeafCall M V) (Access V) V) : Prop where
  chains : ∀ t, s.chains t = (phase t).stack c
  pending : ∀ t, a.pending t = (phase t).pending
  inside : ∀ t x, (phase t).inside = some x ↔ a.holder = some (t, x)
  held : LockModel.mutexHeld s.locks c = a.holder.isSome
  value : s.contexts c = a.value
  log : s.log = a.log.map fun e => (e.1, e.2.toCall c)

variable {c}

namespace Simulates

variable {phase : ι → Phase M V} {s : System ι M C V (.mutex C)}
  {a : JobCode.MutexState ι (LeafCall M V) (Access V) V}

omit [DecidableEq ι] in
/-- Only the holder is inside. -/
theorem outside_of_ne (sim : Simulates c phase s a) {t u : ι} {x : LeafCall M V × Access V}
    (holds : a.holder = some (t, x)) (other : u ≠ t) : (phase u).inside = none := by
  cases inside : (phase u).inside with
  | none => rfl
  | some y =>
      have same := (sim.inside u y).mp inside
      rw [holds] at same
      exact absurd (congrArg Prod.fst (Option.some.inj same)).symm other

/-- The state after a step of thread `t`, read through the new phase of `t`. -/
theorem update (sim : Simulates c phase s a) {t : ι} {phase' : Phase M V}
    {s' : System ι M C V (.mutex C)} {a' : JobCode.MutexState ι (LeafCall M V) (Access V) V}
    (chains : s'.chains = Function.update s.chains t (phase'.stack c))
    (pending : a'.pending = Function.update a.pending t phase'.pending)
    (mine : ∀ x, phase'.inside = some x ↔ a'.holder = some (t, x))
    (others : ∀ u, u ≠ t → ∀ x, (phase u).inside = some x ↔ a'.holder = some (u, x))
    (held : LockModel.mutexHeld s'.locks c = a'.holder.isSome) (value : s'.contexts c = a'.value)
    (log : s'.log = a'.log.map fun e => (e.1, e.2.toCall c)) :
    Simulates c (Function.update phase t phase') s' a' where
  chains u := by
    rw [chains]
    by_cases same : u = t
    · subst u
      rw [Function.update_self, Function.update_self]
    · rw [Function.update_of_ne same, Function.update_of_ne same, sim.chains u]
  pending u := by
    rw [pending]
    by_cases same : u = t
    · subst u
      rw [Function.update_self, Function.update_self]
    · rw [Function.update_of_ne same, Function.update_of_ne same, sim.pending u]
  inside u x := by
    by_cases same : u = t
    · subst u
      rw [Function.update_self]
      exact mine x
    · rw [Function.update_of_ne same]
      exact others u same x
  held := held
  value := value
  log := log

/-- A step that neither takes nor releases the lock nor touches the context changes nothing for the
    threads of the library. -/
theorem stutter (sim : Simulates c phase s a) {t : ι} {phase' : Phase M V}
    {s' : System ι M C V (.mutex C)}
    (chains : s'.chains = Function.update s.chains t (phase'.stack c))
    (pending : phase'.pending = (phase t).pending) (inside : phase'.inside = (phase t).inside)
    (held : LockModel.mutexHeld s'.locks c = LockModel.mutexHeld s.locks c)
    (value : s'.contexts c = s.contexts c) (log : s'.log = s.log) :
    Simulates c (Function.update phase t phase') s' a := by
  apply sim.update chains
  · rw [pending, ← sim.pending t, Function.update_eq_self]
  · intro x
    rw [inside]
    exact sim.inside t x
  · intro u _ x
    exact sim.inside u x
  · exact held.trans sim.held
  · exact value.trans sim.value
  · exact log.trans sim.log

/-- A step of the thread inside, while the others stay outside. -/
theorem inner (sim : Simulates c phase s a) {t : ι} {x : LeafCall M V × Access V}
    (inside : (phase t).inside = some x) {phase' : Phase M V} {s' : System ι M C V (.mutex C)}
    {a' : JobCode.MutexState ι (LeafCall M V) (Access V) V}
    (chains : s'.chains = Function.update s.chains t (phase'.stack c))
    (pending : a'.pending = a.pending) (mine : phase'.pending = (phase t).pending)
    (holder : a'.holder = phase'.inside.map fun y => (t, y))
    (held : LockModel.mutexHeld s'.locks c = a'.holder.isSome) (value : s'.contexts c = a'.value)
    (log : s'.log = s.log) (sameLog : a'.log = a.log) :
    Simulates c (Function.update phase t phase') s' a' := by
  apply sim.update chains
  · rw [pending, mine, ← sim.pending t, Function.update_eq_self]
  · intro y
    rw [holder]
    cases phase'.inside <;> simp
  · intro u other y
    rw [sim.outside_of_ne ((sim.inside t x).mp inside) other, holder]
    cases phase'.inside <;> simp [Ne.symm other]
  · exact held
  · exact value
  · rw [log, sim.log, sameLog]

/-- Each step of a worker is at most one step of the threads of the library. -/
theorem micro (sim : Simulates c phase s a) {t : ι} {phase' : Phase M V} {v v' : V}
    {held held' : Bool} (step : Micro (phase t) v held phase' v' held')
    {s' : System ι M C V (.mutex C)}
    (chains : s'.chains = Function.update s.chains t (phase'.stack c))
    (before : s.contexts c = v) (after : s'.contexts c = v')
    (heldBefore : LockModel.mutexHeld s.locks c = held)
    (heldAfter : LockModel.mutexHeld s'.locks c = held')
    (log : s'.log = s.log ++ (phase t).locking.map fun d => (t, d.toCall c)) :
    ∃ a', Simulates c (Function.update phase t phase') s' a' ∧
      Relation.ReflTransGen (leafCode M V).Step a a' := by
  generalize current : phase t = p at step log
  have value : v = a.value := before.symm.trans sim.value
  have quiet : phase'.pending = p.pending → phase'.inside = p.inside → p.locking = [] →
      held' = held → v' = v →
      ∃ a', Simulates c (Function.update phase t phase') s' a' ∧
        Relation.ReflTransGen (leafCode M V).Step a a' := by
    intro samePending sameInside noLock sameHeld sameValue
    rw [noLock, List.map_nil, List.append_nil] at log
    rw [← current] at samePending sameInside
    exact ⟨a, sim.stutter chains samePending sameInside
      (heldAfter.trans (sameHeld.trans heldBefore.symm))
      (after.trans (sameValue.trans before.symm)) log, .refl⟩
  have held_of_holder : ∀ x, a.holder = some (t, x) → held = true := by
    intro x holds
    rw [← heldBefore, sim.held, holds]
    rfl
  cases step with
  | enter => exact quiet rfl rfl rfl rfl rfl
  | finish => exact quiet rfl rfl rfl rfl rfl
  | call => exact quiet rfl rfl rfl rfl rfl
  | skip nothing =>
      refine quiet rfl ?_ rfl rfl rfl
      simp only [Phase.inside, nothing]
  | finishHandler => exact quiet rfl rfl rfl rfl rfl
  | leave => exact quiet rfl rfl rfl rfl rfl
  | @lock d rest =>
      have free : a.holder = none := by
        have unheld := sim.held.symm.trans heldBefore
        exact Option.isNone_iff_eq_none.mp (by simpa using unheld)
      have next : a.pending t = d :: rest := by
        rw [sim.pending t, current]
        rfl
      have take := JobCode.Step.take (J := leafCode M V) free next
      refine ⟨_, ?_, .single take⟩
      apply sim.update chains
      · rfl
      · intro x
        simp [Phase.inside, leafCode, eq_comm]
      · intro u other x
        rw [sim.inside u x, free]
        simp [Ne.symm other]
      · exact heldAfter
      · exact after.trans value
      · rw [log, sim.log]
        simp [Phase.locking]
  | @read d k rest =>
      have inside : (phase t).inside = some (d, .read k) := by
        rw [current]
        rfl
      have holds := (sim.inside t _).mp inside
      have next : (leafCode M V).step (.read k) a.value = some (k v, a.value) := by
        rw [value]
        rfl
      have work := JobCode.Step.work (J := leafCode M V) holds next
      refine ⟨_, ?_, .single work⟩
      apply sim.inner inside chains
      · rfl
      · rw [current]
        rfl
      · rfl
      · exact heldAfter.trans (held_of_holder _ holds)
      · exact after.trans value
      · exact log.trans (List.append_nil _)
      · rfl
  | @write d f next' rest =>
      have inside : (phase t).inside = some (d, .write f next') := by
        rw [current]
        rfl
      have holds := (sim.inside t _).mp inside
      have next : (leafCode M V).step (.write f next') a.value = some (next', f v) := by
        rw [value]
        rfl
      have work := JobCode.Step.work (J := leafCode M V) holds next
      refine ⟨_, ?_, .single work⟩
      apply sim.inner inside chains
      · rfl
      · rw [current]
        rfl
      · rfl
      · exact heldAfter.trans (held_of_holder _ holds)
      · exact after
      · exact log.trans (List.append_nil _)
      · rfl
  | @unlock d rest =>
      have inside : (phase t).inside = some (d, .done) := by
        rw [current]
        rfl
      have holds := (sim.inside t _).mp inside
      have release := JobCode.Step.release (J := leafCode M V) holds rfl
      refine ⟨_, ?_, .single release⟩
      apply sim.inner inside chains
      · rfl
      · rw [current]
        rfl
      · rfl
      · exact heldAfter
      · exact after.trans value
      · exact log.trans (List.append_nil _)
      · rfl

end Simulates

variable [DecidableEq B]

/-- Every reachable system is that of the library, read through some phases. -/
theorem simulates_of_reached {calls : ι → List (LeafCall M V)} {contexts : C → V}
    {s : System ι M C V (.mutex C)} (reached : (System.start (.mutex C) c calls contexts).Reaches s) :
    ∃ phase a, Simulates c phase s a ∧
      (leafCode M V).Reaches (JobCode.initial (contexts c) calls) a := by
  refine @StepMachine.invariant_of_reachable _ System.Step
    (fun s => ∃ phase a, Simulates c phase s a ∧
      (leafCode M V).Reaches (JobCode.initial (contexts c) calls) a) ?_ _ _ ?_ reached
  · rintro s s' ⟨phase, a, sim, before⟩ ⟨step⟩
    rename_i t m
    have top : (s.view t).stack = (phase t).stack c := sim.chains t
    obtain ⟨phase', top', micro⟩ := micro_of_step top step
    have chains : (s.after t m).chains = Function.update s.chains t (phase'.stack c) := by
      rw [← top']
      rfl
    have log : (s.after t m).log = s.log ++ (phase t).locking.map fun d => (t, d.toCall c) := by
      simp only [System.after, sim.chains t, Phase.lockingCall_stack, List.map_map]
      rfl
    obtain ⟨a', sim', steps⟩ := sim.micro micro chains rfl rfl rfl rfl log
    exact ⟨_, a', sim', before.trans steps⟩
  · refine ⟨fun t => .between (calls t), JobCode.initial (contexts c) calls, ?_, .refl⟩
    exact
      { chains := fun t => rfl
        pending := fun t => rfl
        inside := fun t x => by simp [Phase.inside, JobCode.initial]
        held := rfl
        value := rfl
        log := rfl }

/-- Some worker can go on until all have returned. -/
theorem enabled_of_not_final {phase : ι → Phase M V} {s : System ι M C V (.mutex C)}
    {a : JobCode.MutexState ι (LeafCall M V) (Access V) V} (sim : Simulates c phase s a)
    (unfinished : ¬ s.Final) : ∃ s', s.Step s' := by
  have enabled : ∀ t, phase t ≠ .ended →
      ((phase t).inside = none → LockModel.mutexHeld s.locks c = false) → ∃ s', s.Step s' := by
    intro t alive free
    have top : (s.view t).stack = (phase t).stack c := sim.chains t
    obtain ⟨m, step⟩ := enabled_of_phase top alive free
    exact ⟨_, .thread step⟩
  cases holder : a.holder with
  | some h =>
      -- the holder itself is never in front of a lock
      rcases h with ⟨t, x⟩
      have inside := (sim.inside t x).mpr holder
      apply enabled t
      · intro ended
        rw [ended] at inside
        cases inside
      · intro outside
        rw [outside] at inside
        cases inside
  | none =>
      obtain ⟨t, busy⟩ := not_forall.mp unfinished
      apply enabled t
      · intro ended
        apply busy
        rw [sim.chains t, ended]
        rfl
      · intro _
        rw [sim.held, holder]
        rfl

omit [DecidableEq B] in
/-- Once all workers have returned, the context is that of the calls executed one after the other. -/
theorem serial_of_final {calls : ι → List (LeafCall M V)} {v : V} {phase : ι → Phase M V}
    {s : System ι M C V (.mutex C)} {a : JobCode.MutexState ι (LeafCall M V) (Access V) V}
    (sim : Simulates c phase s a) (serialized : (leafCode M V).Serialized v calls a)
    (final : s.Final) :
    s.contexts c = (leafCode M V).serial a.log v ∧ ∀ t, JobCode.jobsOf a.log t = calls t := by
  have ended : ∀ t, phase t = .ended := by
    intro t
    have empty := final t
    rw [sim.chains t] at empty
    exact Phase.eq_ended_of_stack empty
  have free : a.holder = none := by
    cases holder : a.holder with
    | none => rfl
    | some h =>
        have inside := (sim.inside h.1 h.2).mpr holder
        rw [ended h.1] at inside
        cases inside
  constructor
  · rw [sim.value, ← serialized.value, JobCode.settled, free]
  · intro t
    have order := serialized.order t
    rw [sim.pending t, ended t] at order
    simpa [Phase.pending] using order

end Simulation

end GenericSumType
