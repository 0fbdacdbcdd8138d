/-
Module: GenericSumType.Proofs.UnlockedDispatch
Layer: Proofs
Purpose: Workers that dispatch on one shared context, whatever the lock hooks do.  The phases of
  `Proofs.SharedDispatch` and the context make a system of their own: every run follows it, and with the
  default hooks, which do nothing, every run of it can happen.  For handlers that read their context and
  write it back, updates can be lost but nothing else can go wrong, and any updates of the others made
  between the two can be lost.
Imports: GenericSumType.Proofs.SharedDispatch, GenericSumType.Library.LostUpdate,
  Mathlib.Data.Fintype.Basic
Trusted boundary: none
Main exports: Turn, Workers, Workers.of_reached, Workers.to_reached, Workers.salvaged_of_ended,
  Workers.reaches_erased, Workers.reaches_in_order
Open obligations: none
-/
import GenericSumType.Proofs.SharedDispatch
import GenericSumType.Library.LostUpdate
import Mathlib.Data.Fintype.Basic

namespace GenericSumType

variable {B : Type} {M : TypeModel B} {ι C V : Type}

/-! ### The phases without the lock -/

/-- The steps of a worker: its phase and the shared context. -/
inductive Turn : Phase M V → V → Phase M V → V → Prop where
  | enter {d : LeafCall M V} {rest : List (LeafCall M V)} {v : V} :
      Turn (.between (d :: rest)) v (.entered d rest) v
  | finish {v : V} : Turn (.between []) v .ended v
  | lock {d : LeafCall M V} {rest : List (LeafCall M V)} {v : V} :
      Turn (.entered d rest) v (.locked d rest) v
  | call {d : LeafCall M V} {rest : List (LeafCall M V)} {v : V} {x : Coproduct (d.U.Payload M)}
      (self : d.self = .holds x) : Turn (.locked d rest) v (.running d (d.handlers x.1 x.2) rest) v
  | skip {d : LeafCall M V} {rest : List (LeafCall M V)} {v : V} {tag : Int} {as : RawUnion M}
      {outside : ∀ i : Fin d.U.size, tag ≠ ((i : Nat) : Int)} (self : d.self = .corrupt tag as outside) :
      Turn (.locked d rest) v (.releasing d rest) v
  | read {d : LeafCall M V} {k : V → Access V} {rest : List (LeafCall M V)} {v : V} :
      Turn (.running d (.read k) rest) v (.running d (k v) rest) v
  | write {d : LeafCall M V} {f : V → V} {next : Access V} {rest : List (LeafCall M V)} {v : V} :
      Turn (.running d (.write f next) rest) v (.running d next rest) (f v)
  | finishHandler {d : LeafCall M V} {rest : List (LeafCall M V)} {v : V} :
      Turn (.running d .done rest) v (.releasing d rest) v
  | unlock {d : LeafCall M V} {rest : List (LeafCall M V)} {v : V} :
      Turn (.releasing d rest) v (.leaving d rest) v
  | leave {d : LeafCall M V} {rest : List (LeafCall M V)} {v : V} :
      Turn (.leaving d rest) v (.between rest) v

section Steps

variable [DecidableEq B] [DecidableEq C] {L : LockModel C} {c : C}

/-- Every step of a worker is a turn of its phase. -/
theorem turn_of_step {m m' : Machine M C V L} {phase : Phase M V} (top : m.stack = phase.stack c)
    (step : m.Step m') :
    ∃ phase' : Phase M V, m'.stack = phase'.stack c ∧
      Turn phase (m.contexts c) phase' (m'.contexts c) := by
  cases phase with
  | between rest =>
      cases rest with
      | nil =>
          obtain rfl := step.unique (Move.returned top .caller).step
          exact ⟨.ended, rfl, .finish⟩
      | cons d rest =>
          obtain rfl := step.unique (Move.entered (d := d.toCall c) top .caller).step
          exact ⟨.entered d rest, rfl, .enter⟩
  | entered d rest =>
      cases taken : L.acquire (d.toCall c).ctx m.locks with
      | none =>
          simp only [Machine.Step, Machine.next, top, Phase.stack, taken] at step
          cases step
      | some locks =>
          obtain rfl := step.unique (Move.locked top .caller taken).step
          exact ⟨.locked d rest, rfl, .lock⟩
  | locked d rest =>
      cases self : d.self with
      | holds x =>
          obtain rfl := step.unique (Move.called (d := d.toCall c) top .caller self).step
          exact ⟨.running d (d.handlers x.1 x.2) rest, rfl, .call self⟩
      | corrupt tag as outside =>
          obtain rfl := step.unique (Move.skipped (d := d.toCall c) top .caller self).step
          exact ⟨.releasing d rest, rfl, .skip self⟩
  | running d a rest =>
      have below := under_handler c d rest
      cases a with
      | done =>
          obtain rfl := step.unique (Move.returned top below).step
          exact ⟨.releasing d rest, rfl, .finishHandler⟩
      | read k =>
          obtain rfl := step.unique (Move.updated top below).step
          refine ⟨.running d (k (m.contexts c)) rest, rfl, ?_⟩
          dsimp only
          rw [Function.update_self]
          exact .read
      | write f next =>
          obtain rfl := step.unique (Move.updated top below).step
          refine ⟨.running d next rest, rfl, ?_⟩
          dsimp only
          rw [Function.update_self]
          exact .write
  | releasing d rest =>
      obtain rfl := step.unique (Move.unlocked top .caller).step
      exact ⟨.leaving d rest, rfl, .unlock⟩
  | leaving d rest =>
      obtain rfl := step.unique (Move.left top .caller).step
      exact ⟨.between rest, rfl, .leave⟩
  | ended =>
      simp only [Machine.Step, Machine.next, top, Phase.stack] at step
      cases step

/-- With hooks that do nothing, every turn is a step. -/
theorem step_of_turn {m : Machine M C V (.noop C)} {phase phase' : Phase M V} {v' : V}
    (top : m.stack = phase.stack c) (turn : Turn phase (m.contexts c) phase' v') :
    ∃ m', m.Step m' ∧ m'.stack = phase'.stack c ∧ m'.contexts c = v' := by
  generalize before : m.contexts c = v at turn
  cases turn with
  | @enter d rest => exact ⟨_, (Move.entered (d := d.toCall c) top .caller).step, rfl, before⟩
  | finish => exact ⟨_, (Move.returned top .caller).step, rfl, before⟩
  | lock => exact ⟨_, (Move.locked top .caller rfl).step, rfl, before⟩
  | @call d rest _ x self =>
      exact ⟨_, (Move.called (d := d.toCall c) top .caller self).step, rfl, before⟩
  | @skip d rest _ tag as outside self =>
      exact ⟨_, (Move.skipped (d := d.toCall c) top .caller self).step, rfl, before⟩
  | @read d k rest =>
      refine ⟨_, (Move.updated top (under_handler c d rest)).step, ?_, ?_⟩
      · rw [← before]
        rfl
      · dsimp only
        rw [Function.update_self]
        exact before
  | @write d f next rest =>
      refine ⟨_, (Move.updated top (under_handler c d rest)).step, rfl, ?_⟩
      dsimp only
      rw [Function.update_self, before]
  | finishHandler => exact ⟨_, (Move.returned top (under_handler c _ _)).step, rfl, before⟩
  | unlock => exact ⟨_, (Move.unlocked top .caller).step, rfl, before⟩
  | leave => exact ⟨_, (Move.left top .caller).step, rfl, before⟩

end Steps

/-! ### The system of phases -/

/-- Workers and the context that they share. -/
structure Workers (ι : Type) (M : TypeModel B) (V : Type) where
  phases : ι → Phase M V
  value : V

namespace Workers

variable [DecidableEq ι]

inductive Step (w : Workers ι M V) : Workers ι M V → Prop where
  | turn {t : ι} {phase' : Phase M V} {v' : V} (turn : Turn (w.phases t) w.value phase' v') :
      Step w { phases := Function.update w.phases t phase', value := v' }

def Reaches : Workers ι M V → Workers ι M V → Prop := Relation.ReflTransGen Step

def start (calls : ι → List (LeafCall M V)) (v : V) : Workers ι M V :=
  { phases := fun t => .between (calls t)
    value := v }

/-- The workers as a system of call chains. -/
structure Represents (c : C) {L : LockModel C} (s : System ι M C V L) (w : Workers ι M V) : Prop where
  chains : ∀ t, s.chains t = (w.phases t).stack c
  value : s.contexts c = w.value

omit [DecidableEq ι] in
theorem Represents.ended {c : C} {L : LockModel C} {s : System ι M C V L} {w : Workers ι M V}
    (represents : Represents c s w) : s.Final ↔ ∀ t, w.phases t = .ended := by
  apply forall_congr'
  intro t
  rw [represents.chains t]
  constructor
  · exact Phase.eq_ended_of_stack
  · intro ended
    rw [ended]
    rfl

theorem Represents.after {c : C} {L : LockModel C} {s : System ι M C V L} {w : Workers ι M V}
    (represents : Represents c s w) {t : ι} {m : Machine M C V L} {phase' : Phase M V} {v' : V}
    (top : m.stack = phase'.stack c) (value : m.contexts c = v') :
    Represents c (s.after t m) { phases := Function.update w.phases t phase', value := v' } where
  chains u := by
    by_cases same : u = t
    · subst u
      simp only [System.after, Function.update_self]
      exact top
    · simp only [System.after, Function.update_of_ne same]
      exact represents.chains u
  value := value

variable [DecidableEq B] [DecidableEq C]

/-- Whatever the hooks do, the workers follow their phases. -/
theorem of_reached {L : LockModel C} {c : C} {calls : ι → List (LeafCall M V)} {contexts : C → V}
    {s : System ι M C V L} (reached : (System.start L c calls contexts).Reaches s) :
    ∃ w, Represents c s w ∧ (start calls (contexts c)).Reaches w := by
  refine @StepMachine.invariant_of_reachable _ System.Step
    (fun s => ∃ w, Represents c s w ∧ (start calls (contexts c)).Reaches w) ?_ _ _ ?_ reached
  · rintro s s' ⟨w, represents, before⟩ ⟨step⟩
    rename_i t m
    have top : (s.view t).stack = (w.phases t).stack c := represents.chains t
    obtain ⟨phase', top', turn⟩ := turn_of_step top step
    have value : (s.view t).contexts c = w.value := represents.value
    rw [value] at turn
    exact ⟨_, represents.after top' rfl, .tail before (.turn turn)⟩
  · exact ⟨start calls (contexts c), ⟨fun _ => rfl, rfl⟩, .refl⟩

/-- With hooks that do nothing, all that the phases allow can happen. -/
theorem to_reached {c : C} {calls : ι → List (LeafCall M V)} {contexts : C → V} {w : Workers ι M V}
    (reached : (start calls (contexts c)).Reaches w) :
    ∃ s : System ι M C V (.noop C), (System.start (.noop C) c calls contexts).Reaches s ∧
      Represents c s w := by
  induction reached with
  | refl => exact ⟨System.start (.noop C) c calls contexts, .refl, ⟨fun _ => rfl, rfl⟩⟩
  | @tail w w' _ last ih =>
      obtain ⟨s, before, represents⟩ := ih
      obtain ⟨turn⟩ := last
      rename_i t phase' v'
      have top : (s.view t).stack = (w.phases t).stack c := represents.chains t
      have value : (s.view t).contexts c = w.value := represents.value
      rw [← value] at turn
      obtain ⟨m, step, top', value'⟩ := step_of_turn top turn
      exact ⟨s.after t m, .tail before (.thread step), represents.after top' value'⟩

end Workers

/-! ### What is left of the updates -/

/-- A handler that reads its context, computes, and writes it back. -/
def Access.ReadsThenWrites (a : Access V) : Prop :=
  ∃ f : V → V, a = .read fun v => .write (fun _ => f v) .done

/-- The calls of a worker that have not been written back yet. -/
def Phase.unwritten : Phase M V → List (LeafCall M V)
  | between rest | releasing _ rest | leaving _ rest | running _ .done rest => rest
  | entered d rest | locked d rest | running d _ rest => d :: rest
  | ended => []

/-- What a worker is about to write back comes from a value that it read. -/
inductive InFlight (v₀ : V) (done : ι → List (LeafCall M V)) [DecidableEq ι] : Phase M V → Prop where
  | outside {phase : Phase M V} (outside : ∀ d a rest, phase ≠ .running d a rest) : InFlight v₀ done phase
  | called {d : LeafCall M V} {rest : List (LeafCall M V)} : InFlight v₀ done (.running d d.code rest)
  | read {d : LeafCall M V} {rest : List (LeafCall M V)} {r : V}
      (salvaged : (leafCode M V).Salvaged v₀ done r) :
      InFlight v₀ done (.running d (.write (fun _ => (leafCode M V).atomic d r) .done) rest)
  | written {d : LeafCall M V} {rest : List (LeafCall M V)} : InFlight v₀ done (.running d .done rest)

section InFlight

variable [DecidableEq ι] {v₀ : V} {done : ι → List (LeafCall M V)}

theorem InFlight.mono {phase : Phase M V} (inFlight : InFlight v₀ done phase) (t : ι)
    (d : LeafCall M V) : InFlight v₀ (JobCode.finishJob done t d) phase := by
  cases inFlight with
  | outside outside => exact .outside outside
  | called => exact .called
  | read salvaged => exact .read (salvaged.mono t d)
  | written => exact .written

theorem InFlight.of_running {d : LeafCall M V} {a : Access V} {rest : List (LeafCall M V)}
    (inFlight : InFlight v₀ done (.running d a rest)) :
    a = d.code ∨ (∃ r, (leafCode M V).Salvaged v₀ done r ∧
      a = .write (fun _ => (leafCode M V).atomic d r) .done) ∨ a = .done := by
  cases inFlight with
  | outside outside => exact absurd rfl (outside d a rest)
  | called => exact .inl rfl
  | read salvaged => exact .inr (.inl ⟨_, salvaged, rfl⟩)
  | written => exact .inr (.inr rfl)

end InFlight

namespace Workers

variable [DecidableEq ι]

/-- The value and all that was read are values of a part of what is done. -/
structure Salvages (v₀ : V) (calls done : ι → List (LeafCall M V)) (w : Workers ι M V) : Prop where
  order : ∀ t, done t ++ (w.phases t).unwritten = calls t
  value : (leafCode M V).Salvaged v₀ done w.value
  inFlight : ∀ t, InFlight v₀ done (w.phases t)

variable {v₀ : V} {calls done : ι → List (LeafCall M V)} {w : Workers ι M V}

/-- A turn that does not write. -/
theorem Salvages.quiet (salvages : Salvages v₀ calls done w) {t : ι} {phase' : Phase M V}
    (same : phase'.unwritten = (w.phases t).unwritten) (inFlight : InFlight v₀ done phase') :
    Salvages v₀ calls done { phases := Function.update w.phases t phase', value := w.value } where
  order u := by
    by_cases equal : u = t
    · subst u
      dsimp only
      rw [Function.update_self, same]
      exact salvages.order t
    · dsimp only
      rw [Function.update_of_ne equal]
      exact salvages.order u
  value := salvages.value
  inFlight u := by
    by_cases equal : u = t
    · subst u
      dsimp only
      rw [Function.update_self]
      exact inFlight
    · dsimp only
      rw [Function.update_of_ne equal]
      exact salvages.inFlight u

/-- A turn that writes back what was computed from a value read before. -/
theorem Salvages.wrote (salvages : Salvages v₀ calls done w) {t : ι} {d : LeafCall M V}
    {rest : List (LeafCall M V)} {r : V} (before : (w.phases t).unwritten = d :: rest)
    (salvaged : (leafCode M V).Salvaged v₀ done r) :
    Salvages v₀ calls (JobCode.finishJob done t d)
      { phases := Function.update w.phases t (.running d .done rest)
        value := (leafCode M V).atomic d r } where
  order u := by
    by_cases equal : u = t
    · subst u
      dsimp only [JobCode.finishJob]
      rw [Function.update_self, Function.update_self, ← salvages.order t, before,
        List.append_assoc]
      rfl
    · dsimp only [JobCode.finishJob]
      rw [Function.update_of_ne equal, Function.update_of_ne equal]
      exact salvages.order u
  value := salvaged.write t d
  inFlight u := by
    by_cases equal : u = t
    · subst u
      dsimp only
      rw [Function.update_self]
      exact .written
    · dsimp only
      rw [Function.update_of_ne equal]
      exact (salvages.inFlight u).mono t d

theorem Salvages.step (updates : ∀ t, ∀ d ∈ calls t, d.code.ReadsThenWrites) {w' : Workers ι M V}
    (salvages : Salvages v₀ calls done w) (step : w.Step w') :
    ∃ done', Salvages v₀ calls done' w' := by
  obtain ⟨turn⟩ := step
  rename_i t phase' v'
  have mine := salvages.order t
  have flight := salvages.inFlight t
  have quiet (same : phase'.unwritten = (w.phases t).unwritten) (inFlight : InFlight v₀ done phase') :=
    salvages.quiet same inFlight
  have member (d : LeafCall M V) (rest : List (LeafCall M V))
      (pending : (w.phases t).unwritten = d :: rest) : d.code.ReadsThenWrites := by
    apply updates t
    rw [← mine, pending]
    simp
  generalize current : w.phases t = phase at turn flight mine quiet member
  generalize before : w.value = v at turn quiet
  cases turn with
  | enter => exact ⟨done, quiet rfl (.outside (by simp))⟩
  | finish => exact ⟨done, quiet rfl (.outside (by simp))⟩
  | lock => exact ⟨done, quiet rfl (.outside (by simp))⟩
  | @call d rest _ x self =>
      obtain ⟨f, code⟩ := member d rest rfl
      have called : d.handlers x.1 x.2 = d.code := by
        rw [LeafCall.code, self]
      rw [called] at quiet ⊢
      refine ⟨done, quiet ?_ .called⟩
      rw [code]
      rfl
  | @skip d rest _ tag as outside self =>
      obtain ⟨f, code⟩ := member d rest rfl
      rw [LeafCall.code, self] at code
      cases code
  | @read d k rest =>
      obtain ⟨f, code⟩ := member d rest rfl
      rcases flight.of_running with called | ⟨r, _, wrote⟩ | ended
      · rw [code] at called
        obtain rfl := Access.read.inj called
        have computed : f v' = (leafCode M V).atomic d v' := by
          change f v' = d.code.effect v'
          rw [code]
          rfl
        refine ⟨done, quiet rfl ?_⟩
        dsimp only
        rw [computed]
        exact .read (before ▸ salvages.value)
      · cases wrote
      · cases ended
  | @write d f next rest =>
      obtain ⟨g, code⟩ := member d rest rfl
      rcases flight.of_running with called | ⟨r, salvaged, wrote⟩ | ended
      · rw [code] at called
        cases called
      · cases wrote
        refine ⟨_, salvages.wrote ?_ salvaged⟩
        rw [current]
        rfl
      · cases ended
  | finishHandler => exact ⟨done, quiet rfl (.outside (by simp))⟩
  | unlock => exact ⟨done, quiet rfl (.outside (by simp))⟩
  | leave => exact ⟨done, quiet rfl (.outside (by simp))⟩

theorem salvages_of_reached (updates : ∀ t, ∀ d ∈ calls t, d.code.ReadsThenWrites)
    (reached : (start calls v₀).Reaches w) : ∃ done, Salvages v₀ calls done w := by
  refine @StepMachine.invariant_of_reachable _ Step (fun w => ∃ done, Salvages v₀ calls done w) ?_
    _ _ ⟨fun _ => [], ?_⟩ reached
  · rintro w w' ⟨done, salvages⟩ step
    exact salvages.step updates step
  · exact
      { order := fun t => rfl
        value := .initial _ _
        inFlight := fun t => .outside (by simp [start]) }

/-- When all workers are through, the value is that of some of their calls executed at once, in an order
    that keeps the order of every worker. -/
theorem salvaged_of_ended (updates : ∀ t, ∀ d ∈ calls t, d.code.ReadsThenWrites)
    (reached : (start calls v₀).Reaches w) (ended : ∀ t, w.phases t = .ended) :
    (leafCode M V).Salvaged v₀ calls w.value := by
  obtain ⟨done, salvages⟩ := salvages_of_reached updates reached
  have complete : done = calls := by
    funext t
    have order := salvages.order t
    rw [ended t] at order
    exact (List.append_nil _).symm.trans order
  rw [← complete]
  exact salvages.value

end Workers

/-! ### Updates that are lost -/

section Alone

/-- One worker goes on while the others wait. -/
inductive Alone : Phase M V → V → Phase M V → V → Prop where
  | refl {phase : Phase M V} {v : V} : Alone phase v phase v
  | head {phase phase' phase'' : Phase M V} {v v' v'' : V} (turn : Turn phase v phase' v')
      (later : Alone phase' v' phase'' v'') : Alone phase v phase'' v''

theorem Alone.trans {phase phase' phase'' : Phase M V} {v v' v'' : V}
    (first : Alone phase v phase' v') (second : Alone phase' v' phase'' v'') :
    Alone phase v phase'' v'' := by
  induction first with
  | refl => exact second
  | head turn _ ih => exact .head turn (ih second)

theorem alone_code (d : LeafCall M V) (a : Access V) (rest : List (LeafCall M V)) (v : V) :
    Alone (.running d a rest) v (.running d .done rest) (a.effect v) := by
  induction a generalizing v with
  | done => exact .refl
  | read k ih => exact .head .read (ih v v)
  | write f next ih => exact .head .write (ih (f v))

theorem alone_enter (d : LeafCall M V) (rest : List (LeafCall M V)) (v : V) :
    Alone (.between (d :: rest)) v (.locked d rest) v :=
  .head .enter (.head .lock .refl)

/-- From the end of its switch a worker comes to its next call. -/
theorem alone_leave (d : LeafCall M V) (rest : List (LeafCall M V)) (v : V) :
    Alone (.releasing d rest) v (.between rest) v :=
  .head .unlock (.head .leave .refl)

theorem alone_call (d : LeafCall M V) (rest : List (LeafCall M V)) (v : V) :
    Alone (.between (d :: rest)) v (.between rest) ((leafCode M V).atomic d v) := by
  refine (alone_enter d rest v).trans ?_
  cases self : d.self with
  | holds x =>
      have code : d.handlers x.1 x.2 = d.code := by
        rw [LeafCall.code, self]
      refine .head (.call self) ?_
      rw [code]
      exact (alone_code d d.code rest v).trans (.head .finishHandler (alone_leave d rest _))
  | corrupt tag as outside =>
      have unchanged : (leafCode M V).atomic d v = v := by
        change d.code.effect v = v
        rw [LeafCall.code, self]
        rfl
      rw [unchanged]
      exact .head (.skip self) (alone_leave d rest v)

/-- A worker that has read and not written yet. -/
theorem alone_read {d : LeafCall M V} (updates : d.code.ReadsThenWrites) (rest : List (LeafCall M V))
    (v : V) :
    Alone (.between (d :: rest)) v
      (.running d (.write (fun _ => (leafCode M V).atomic d v) .done) rest) v := by
  obtain ⟨f, code⟩ := updates
  have computed : (leafCode M V).atomic d v = f v := by
    change d.code.effect v = f v
    rw [code]
    rfl
  rw [computed]
  refine (alone_enter d rest v).trans ?_
  cases self : d.self with
  | holds x =>
      have called : d.handlers x.1 x.2 = .read fun v => .write (fun _ => f v) .done := by
        rw [← code, LeafCall.code, self]
      refine .head (.call self) ?_
      rw [called]
      exact .head .read .refl
  | corrupt tag as outside =>
      rw [LeafCall.code, self] at code
      cases code

theorem alone_write (d : LeafCall M V) (x : V) (rest : List (LeafCall M V)) (v : V) :
    Alone (.running d (.write (fun _ => x) .done) rest) v (.between rest) x :=
  .head .write (.head .finishHandler (alone_leave d rest x))

end Alone

namespace Workers

variable [DecidableEq ι]

theorem reaches_of_alone {w : Workers ι M V} {t : ι} {phase phase' : Phase M V} {v' : V}
    (current : w.phases t = phase) (alone : Alone phase w.value phase' v') :
    w.Reaches { phases := Function.update w.phases t phase', value := v' } := by
  rcases w with ⟨phases, v⟩
  dsimp only at current alone ⊢
  induction alone generalizing phases with
  | refl =>
      rw [← current, Function.update_eq_self]
      exact .refl
  | @head phase middle phase' v v₁ v' turn _ ih =>
      subst current
      have later := ih (Function.update phases t middle) (Function.update_self t middle phases)
      rw [Function.update_idem] at later
      exact .head (.turn turn) later

/-- Workers between their calls work off a log, one call after the other. -/
theorem reaches_serial (log : List (ι × LeafCall M V)) {w : Workers ι M V}
    {rest : ι → List (LeafCall M V)}
    (ready : ∀ t, JobCode.jobsOf log t = [] ∨
      w.phases t = .between (JobCode.jobsOf log t ++ rest t)) :
    w.Reaches
      { phases := fun t => if JobCode.jobsOf log t = [] then w.phases t else .between (rest t)
        value := (leafCode M V).serial log w.value } := by
  induction log generalizing w with
  | nil => exact .refl
  | cons e log ih =>
      rcases e with ⟨t, d⟩
      have mine := JobCode.jobsOf_cons_self log t d
      have others (u : ι) (other : u ≠ t) :
          JobCode.jobsOf ((t, d) :: log) u = JobCode.jobsOf log u :=
        JobCode.jobsOf_cons_of_ne log d other.symm
      have current : w.phases t = .between (d :: (JobCode.jobsOf log t ++ rest t)) := by
        have here := ready t
        rw [mine] at here
        exact here.resolve_left (by simp)
      let next : Workers ι M V :=
        { phases := Function.update w.phases t (.between (JobCode.jobsOf log t ++ rest t))
          value := (leafCode M V).atomic d w.value }
      have first : w.Reaches next := reaches_of_alone current (alone_call d _ w.value)
      have readyNext (u : ι) : JobCode.jobsOf log u = [] ∨
          next.phases u = .between (JobCode.jobsOf log u ++ rest u) := by
        by_cases same : u = t
        · subst u
          exact .inr (Function.update_self _ _ _)
        · dsimp only [next]
          rw [Function.update_of_ne same, ← others u same]
          exact ready u
      have later := ih readyNext
      have phases : (fun u => if JobCode.jobsOf log u = [] then next.phases u else .between (rest u)) =
          fun u => if JobCode.jobsOf ((t, d) :: log) u = [] then w.phases u else .between (rest u) := by
        funext u
        by_cases same : u = t
        · subst u
          rw [mine, if_neg (List.cons_ne_nil d _)]
          split
          · rename_i nothing
            simp only [next, Function.update_self, nothing, List.nil_append]
          · rfl
        · rw [others u same]
          simp only [next, Function.update_of_ne same]
      rw [phases] at later
      exact first.trans later

/-- The same when every worker is between two calls. -/
theorem reaches_serial_all (log : List (ι × LeafCall M V)) {w : Workers ι M V}
    {rest : ι → List (LeafCall M V)}
    (ready : ∀ t, w.phases t = .between (JobCode.jobsOf log t ++ rest t)) :
    w.Reaches
      { phases := fun t => .between (rest t)
        value := (leafCode M V).serial log w.value } := by
  have ran := reaches_serial log fun t => .inr (ready t)
  have phases : (fun t => if JobCode.jobsOf log t = [] then w.phases t else .between (rest t)) =
      fun t => .between (rest t) := by
    funext t
    split
    · rename_i nothing
      rw [ready t, nothing, List.nil_append]
    · rfl
  rw [phases] at ran
  exact ran

/-- Workers without further calls return. -/
theorem reaches_end [Finite ι] {w : Workers ι M V} (idle : ∀ t, w.phases t = .between []) :
    w.Reaches { phases := fun _ => .ended, value := w.value } := by
  cases nonempty_fintype ι
  have returned (S : Finset ι) :
      w.Reaches { phases := fun t => if t ∈ S then .ended else .between [], value := w.value } := by
    induction S using Finset.induction_on with
    | empty =>
        have phases : (fun t : ι => if t ∈ (∅ : Finset ι) then Phase.ended else .between []) =
            w.phases := by
          funext t
          rw [if_neg (Finset.notMem_empty t), idle t]
        rw [phases]
        exact .refl
    | insert t S fresh ih =>
        let before : Workers ι M V :=
          { phases := fun u => if u ∈ S then .ended else .between [], value := w.value }
        have current : before.phases t = .between [] := if_neg fresh
        have step : before.Step
            { phases := Function.update before.phases t .ended, value := before.value } := by
          refine .turn ?_
          rw [current]
          exact .finish
        have phases : Function.update before.phases t .ended =
            fun u => if u ∈ insert t S then .ended else .between [] := by
          funext u
          by_cases same : u = t
          · subst u
            rw [Function.update_self, if_pos (Finset.mem_insert_self t S)]
          · rw [Function.update_of_ne same]
            simp only [before, Finset.mem_insert, same, false_or]
        rw [phases] at step
        exact .tail ih step
  have all := returned Finset.univ
  simp only [Finset.mem_univ, if_true] at all
  exact all

/-- A worker reads, others make their updates, and then the worker writes back what it computed from
    the value it read: the updates are lost. -/
theorem reaches_erased [Finite ι] {calls : ι → List (LeafCall M V)} (v : V)
    (before lost after : List (ι × LeafCall M V)) {t : ι} {d : LeafCall M V}
    (updates : d.code.ReadsThenWrites) (away : JobCode.jobsOf lost t = [])
    (each : ∀ u, JobCode.jobsOf (before ++ (t, d) :: (lost ++ after)) u = calls u) :
    (start calls v).Reaches
      { phases := fun _ => .ended
        value := (leafCode M V).serial (before ++ (t, d) :: after) v } := by
  let rest (u : ι) : List (LeafCall M V) := JobCode.jobsOf ((t, d) :: (lost ++ after)) u
  let read : V := (leafCode M V).serial before v
  have toRead : (start calls v).Reaches { phases := fun u => .between (rest u), value := read } := by
    apply reaches_serial_all before
    intro u
    rw [← JobCode.jobsOf_append, each u]
    rfl
  have mine : rest t = d :: JobCode.jobsOf after t := by
    simp only [rest, JobCode.jobsOf_cons_self, JobCode.jobsOf_append, away, List.nil_append]
  have others (u : ι) (other : u ≠ t) : rest u = JobCode.jobsOf lost u ++ JobCode.jobsOf after u := by
    simp only [rest, JobCode.jobsOf_cons_of_ne _ d (Ne.symm other), JobCode.jobsOf_append]
  let holding : Phase M V :=
    .running d (.write (fun _ => (leafCode M V).atomic d read) .done) (JobCode.jobsOf after t)
  let hasRead : Workers ι M V :=
    { phases := Function.update (fun u => .between (rest u)) t holding, value := read }
  have reads : (start calls v).Reaches hasRead := by
    have current : Phase.between (rest t) = .between (d :: JobCode.jobsOf after t) :=
      congrArg Phase.between mine
    exact toRead.trans (reaches_of_alone current (alone_read updates _ read))
  let overtaken : Workers ι M V :=
    { phases := fun u => if JobCode.jobsOf lost u = [] then hasRead.phases u
        else .between (JobCode.jobsOf after u)
      value := (leafCode M V).serial lost read }
  have overtakes : (start calls v).Reaches overtaken := by
    refine reads.trans (reaches_serial lost ?_)
    intro u
    by_cases same : u = t
    · subst u
      exact .inl away
    · right
      simp only [hasRead, Function.update_of_ne same, others u same]
  have waits : overtaken.phases t = holding := by
    simp only [overtaken, away, if_true, hasRead, Function.update_self]
  have writes := overtakes.trans (reaches_of_alone waits
    (alone_write d ((leafCode M V).atomic d read) (JobCode.jobsOf after t) overtaken.value))
  have idle (u : ι) : Function.update overtaken.phases t (.between (JobCode.jobsOf after t)) u =
      .between (JobCode.jobsOf after u ++ []) := by
    rw [List.append_nil]
    by_cases same : u = t
    · subst u
      rw [Function.update_self]
    · rw [Function.update_of_ne same]
      simp only [overtaken, hasRead, Function.update_of_ne same, others u same]
      split
      · rename_i nothing
        rw [nothing, List.nil_append]
      · rfl
  have rests := writes.trans (reaches_serial_all after idle)
  have ends := rests.trans (reaches_end fun _ => rfl)
  have value : (leafCode M V).serial after ((leafCode M V).atomic d read) =
      (leafCode M V).serial (before ++ (t, d) :: after) v := by
    simp only [JobCode.serial, List.foldl_append, List.foldl_cons, read]
  rw [← value]
  exact ends

/-- Without a loss the workers can also take turns in any order. -/
theorem reaches_in_order [Finite ι] {calls : ι → List (LeafCall M V)} (v : V)
    (order : List (ι × LeafCall M V)) (each : ∀ u, JobCode.jobsOf order u = calls u) :
    (start calls v).Reaches
      { phases := fun _ => .ended, value := (leafCode M V).serial order v } := by
  have ran : (start calls v).Reaches
      { phases := fun _ => .between [], value := (leafCode M V).serial order v } := by
    apply reaches_serial_all order
    intro u
    rw [each u, List.append_nil]
    rfl
  exact ran.trans (reaches_end fun _ => rfl)

end Workers

end GenericSumType
