/-
Module: GenericSumType.Proofs.NestedThreads
Layer: Proofs
Purpose: Any number of threads with arbitrarily nested dispatches.  `Move` of `Proofs.LockDiscipline` says
  what one thread does in a step; from it follow mutual exclusion for every lock that is a mutex,
  termination for every lock whatsoever, and that a circle of waiting threads is the only deadlock.
Imports: GenericSumType.Semantics.SharedDispatch, GenericSumType.Proofs.LockDiscipline,
  GenericSumType.Library.ThreadLocks, GenericSumType.Examples.ThreadsafeDispatchDemo
Trusted boundary: none
Main exports: wellFounded_follows, invariant_of_launched, shared_of_launched, ends_of_launched,
  dispatches_exclude_each_other, deadlock_is_wait_circle, ordered_contexts_never_deadlock,
  opposite_orders_deadlock
Open obligations: none
-/
import GenericSumType.Semantics.SharedDispatch
import GenericSumType.Proofs.LockDiscipline
import GenericSumType.Library.ThreadLocks
import GenericSumType.Examples.ThreadsafeDispatchDemo

namespace GenericSumType

variable {B : Type} {M : TypeModel B} {ι C V : Type}

/-! ### One thread -/

section Thread

variable [DecidableEq C] {L : LockModel C} {m m' : Machine M C V L}

/-- What a move does to the contexts that are held, and to the locks. -/
theorem Move.held (move : Move m m') :
    (heldCtxs m'.stack = heldCtxs m.stack ∧ m'.locks = m.locks) ∨
      (∃ c, heldCtxs m'.stack = c :: heldCtxs m.stack ∧ L.acquire c m.locks = some m'.locks) ∨
      ∃ c, heldCtxs m.stack = c :: heldCtxs m'.stack ∧ m'.locks = L.release c m.locks := by
  cases move with
  | @locked owner d p rest locks top _ taken =>
      rw [top]
      exact .inr (.inl ⟨d.ctx, rfl, taken⟩)
  | @unlocked owner d p rest top _ =>
      rw [top]
      exact .inr (.inr ⟨d.ctx, rfl, rfl⟩)
  | returned top _ => rw [top]; exact .inl ⟨rfl, rfl⟩
  | updated top _ => rw [top]; exact .inl ⟨rfl, rfl⟩
  | entered top _ => rw [top]; exact .inl ⟨rfl, rfl⟩
  | skipped top _ _ => rw [top]; exact .inl ⟨rfl, rfl⟩
  | called top _ _ => rw [top]; exact .inl ⟨rfl, rfl⟩
  | left top _ => rw [top]; exact .inl ⟨rfl, rfl⟩

end Thread

/-! ### Call chains -/

/-- What a move makes of a call chain, whatever the locks and the contexts are. -/
inductive Follows : List (Frame M C V) → List (Frame M C V) → Prop where
  | returned {owner : Option C} {rest : List (Frame M C V)} :
      Follows (.code owner .done :: rest) rest
  | updated {owner : Option C} {target : C} {f : V → V} {k : V → Prog M C V}
      {rest : List (Frame M C V)} (v : V) :
      Follows (.code owner (.update target f k) :: rest) (.code owner (k v) :: rest)
  | entered {owner : Option C} {U : SumInstance B} {self : DispatchValue U M} {ctx : C}
      {handlers : (i : Fin U.size) → U.Payload M i → Prog M C V} {k : Prog M C V}
      {rest : List (Frame M C V)} :
      Follows (.code owner (.dispatch U self ctx handlers k) :: rest)
        (.body { U := U, self := self, ctx := ctx, handlers := handlers }
          [.lock, .switch, .unlock] :: .code owner k :: rest)
  | locked {d : ActiveCall M C V} {rest : List (Frame M C V)} :
      Follows (.body d [.lock, .switch, .unlock] :: rest) (.body d [.switch, .unlock] :: rest)
  | skipped {d : ActiveCall M C V} {rest : List (Frame M C V)} :
      Follows (.body d [.switch, .unlock] :: rest) (.body d [.unlock] :: rest)
  | called {d : ActiveCall M C V} {rest : List (Frame M C V)} (i : Fin d.U.size)
      (x : d.U.Payload M i) :
      Follows (.body d [.switch, .unlock] :: rest)
        (.code (some d.ctx) (d.handlers i x) :: .body d [.unlock] :: rest)
  | unlocked {d : ActiveCall M C V} {rest : List (Frame M C V)} :
      Follows (.body d [.unlock] :: rest) (.body d [] :: rest)
  | left {d : ActiveCall M C V} {rest : List (Frame M C V)} : Follows (.body d [] :: rest) rest

theorem Move.follows [DecidableEq C] {L : LockModel C} {m m' : Machine M C V L} (move : Move m m') :
    Follows m.stack m'.stack := by
  cases move with
  | returned top _ => rw [top]; exact .returned
  | updated top _ => rw [top]; exact .updated _
  | entered top _ => rw [top]; exact .entered
  | locked top _ _ => rw [top]; exact .locked
  | skipped top _ _ => rw [top]; exact .skipped
  | called top _ _ => rw [top]; exact .called _ _
  | unlocked top _ => rw [top]; exact .unlocked
  | left top _ => rw [top]; exact .left

/-! ### Termination -/

section Termination

variable {d : ActiveCall M C V} {rest : List (Frame M C V)}

theorem acc_left (behind : Acc (flip Follows) rest) : Acc (flip Follows) (.body d [] :: rest) := by
  constructor
  rintro after ⟨⟩
  exact behind

theorem acc_unlocking (behind : Acc (flip Follows) rest) :
    Acc (flip Follows) (.body d [.unlock] :: rest) := by
  constructor
  rintro after ⟨⟩
  exact acc_left behind

/-- A switch comes to its end when the handlers that it can call do. -/
theorem acc_switching (behind : Acc (flip Follows) rest)
    (inside : ∀ i x,
      Acc (flip Follows) (.code (some d.ctx) (d.handlers i x) :: .body d [.unlock] :: rest)) :
    Acc (flip Follows) (.body d [.switch, .unlock] :: rest) := by
  constructor
  intro after follows
  cases follows with
  | skipped => exact acc_unlocking behind
  | called i x => exact inside i x

theorem acc_locking (behind : Acc (flip Follows) rest)
    (inside : ∀ i x,
      Acc (flip Follows) (.code (some d.ctx) (d.handlers i x) :: .body d [.unlock] :: rest)) :
    Acc (flip Follows) (.body d [.lock, .switch, .unlock] :: rest) := by
  constructor
  rintro after ⟨⟩
  exact acc_switching behind inside

/-- Code comes to its end when what lies under it does.  The induction is on the program: the handlers
    are smaller than the dispatch that calls them. -/
theorem acc_code (p : Prog M C V) {owner : Option C} {rest : List (Frame M C V)}
    (behind : Acc (flip Follows) rest) : Acc (flip Follows) (.code owner p :: rest) := by
  induction p generalizing owner rest with
  | done =>
      constructor
      rintro after ⟨⟩
      exact behind
  | update target f k ih =>
      constructor
      intro after follows
      cases follows with
      | updated v => exact ih v behind
  | dispatch U self ctx handlers k ihHandlers ihNext =>
      constructor
      rintro after ⟨⟩
      apply acc_locking (ihNext behind)
      intro i x
      exact ihHandlers i x (acc_unlocking (ihNext behind))

/-- No call chain goes on for ever. -/
theorem wellFounded_follows : WellFounded (flip (Follows (M := M) (C := C) (V := V))) := by
  constructor
  intro stack
  induction stack with
  | nil =>
      constructor
      rintro after ⟨⟩
  | cons frame rest behind =>
      cases frame with
      | code owner p => exact acc_code p behind
      | body d statements =>
          have inside (i : Fin d.U.size) (x : d.U.Payload M i) :
              Acc (flip Follows) (.code (some d.ctx) (d.handlers i x) :: .body d [.unlock] :: rest) :=
            acc_code (d.handlers i x) (acc_unlocking behind)
          constructor
          intro after follows
          cases follows with
          | locked => exact acc_switching behind inside
          | skipped => exact acc_unlocking behind
          | called i x => exact inside i x
          | unlocked => exact acc_left behind
          | left => exact behind

end Termination

/-! ### All threads -/

namespace System

variable [DecidableEq ι] {L : LockModel C}

/-- A dispatch on `c` that thread `t` has not left yet holds its lock. -/
def Holds (s : System ι M C V L) (t : ι) (c : C) : Prop := c ∈ heldCtxs (s.chains t)

/-- The next statement of thread `t` takes the lock of `c`. -/
def WaitsFor (s : System ι M C V L) (t : ι) (c : C) : Prop :=
  ∃ d ∈ lockingCall (s.chains t), d.ctx = c

theorem chains_after_self (s : System ι M C V L) (t : ι) (m : Machine M C V L) :
    (s.after t m).chains t = m.stack := by
  simp only [after, Function.update_self]

theorem chains_after_of_ne (s : System ι M C V L) {t u : ι} (m : Machine M C V L) (other : u ≠ t) :
    (s.after t m).chains u = s.chains u := by
  simp only [after, Function.update_of_ne other]

variable [DecidableEq B] [DecidableEq C]

/-- What the start has and every move of a thread keeps, every reachable system has. -/
theorem invariant_of_launched {Inv : System ι M C V L → Prop} {programs : ι → Prog M C V}
    {contexts : C → V} (initial : Inv (.launch L programs contexts))
    (kept : ∀ s t m, Inv s → Move (s.view t) m → Inv (s.after t m)) {s : System ι M C V L}
    (reached : (System.launch L programs contexts).Reaches s) :
    (∀ t, Shape (s.chains t)) ∧ Inv s := by
  refine @StepMachine.invariant_of_reachable _ Step (fun s => (∀ t, Shape (s.chains t)) ∧ Inv s) ?_
    _ _ ⟨fun t => .code .caller, initial⟩ reached
  rintro s s' ⟨shape, inv⟩ ⟨step⟩
  rename_i t m
  have move : Move (s.view t) m := Shape.move_of_step (shape t) step
  refine ⟨?_, kept s t m inv move⟩
  intro u
  by_cases same : u = t
  · subst u
    rw [chains_after_self]
    exact move.shape
  · rw [chains_after_of_ne s m same]
    exact shape u

theorem shape_of_launched {programs : ι → Prog M C V} {contexts : C → V} {s : System ι M C V L}
    (reached : (System.launch L programs contexts).Reaches s) (t : ι) : Shape (s.chains t) :=
  (@invariant_of_launched _ _ _ _ _ _ _ _ _ (fun _ => True) _ _ trivial
    (fun _ _ _ _ _ => trivial) _ reached).1 t

/-! ### Mutual exclusion -/

omit [DecidableEq B] in
/-- The mutexes are held as the call chains say. -/
theorem shared_after {s : System ι M C V (.mutex C)} {t : ι} {m : Machine M C V (.mutex C)}
    (shared : LockModel.MutexShared s.locks fun u => heldCtxs (s.chains u))
    (move : Move (s.view t) m) :
    LockModel.MutexShared (s.after t m).locks fun u => heldCtxs ((s.after t m).chains u) := by
  have held : (fun u => heldCtxs ((s.after t m).chains u)) =
      Function.update (fun u => heldCtxs (s.chains u)) t (heldCtxs m.stack) := by
    funext u
    by_cases same : u = t
    · subst u
      rw [chains_after_self, Function.update_self]
    · rw [chains_after_of_ne s m same, Function.update_of_ne same]
  rw [held]
  rcases move.held with ⟨kept, locks⟩ | ⟨c, taken, locks⟩ | ⟨c, given, locks⟩
  · have same : (s.after t m).locks = s.locks := locks
    rw [same, kept]
    change LockModel.MutexShared s.locks
      (Function.update (fun u => heldCtxs (s.chains u)) t (heldCtxs (s.chains t)))
    rw [Function.update_eq_self]
    exact shared
  · rw [taken]
    exact shared.acquired locks
  · have released : (s.after t m).locks = LockModel.releaseMutex c s.locks := locks
    rw [released]
    exact shared.released given

theorem shared_of_launched {programs : ι → Prog M C V} {contexts : C → V}
    {s : System ι M C V (.mutex C)} (reached : (System.launch (.mutex C) programs contexts).Reaches s) :
    LockModel.MutexShared s.locks fun u => heldCtxs (s.chains u) := by
  have kept (s : System ι M C V (.mutex C)) (t : ι) (m : Machine M C V (.mutex C))
      (shared : LockModel.MutexShared s.locks fun u => heldCtxs (s.chains u))
      (move : Move (s.view t) m) :
      LockModel.MutexShared (s.after t m).locks fun u => heldCtxs ((s.after t m).chains u) :=
    shared_after shared move
  exact (invariant_of_launched (LockModel.MutexShared.free fun t => rfl) kept reached).2

omit [DecidableEq ι] [DecidableEq B] [DecidableEq C] in
/-- Handler code runs under the lock of its dispatch. -/
theorem holds_of_handler {s : System ι M C V L} {t : ι} {c : C} {p : Prog M C V}
    {rest : List (Frame M C V)} (shape : Shape (s.chains t))
    (top : s.chains t = .code (some c) p :: rest) : s.Holds t c := by
  rw [top] at shape
  rw [Holds, top]
  cases shape with
  | code below => exact below.owner_held

/-- Any number of threads with arbitrarily nested dispatches, for mutexes.  In every reachable state a
    mutex is locked exactly when a thread holds its context, no two threads hold one context, and a
    handler of a dispatch runs only while its own thread holds the context: handlers of two threads for
    one context never overlap.  No generated statement of any thread faults. -/
theorem dispatches_exclude_each_other (programs : ι → Prog M C V) (contexts : C → V)
    (s : System ι M C V (.mutex C)) (reached : (System.launch (.mutex C) programs contexts).Reaches s) :
    (∀ c, LockModel.mutexHeld s.locks c = true ↔ ∃ t, s.Holds t c) ∧
      (∀ t u c, s.Holds t c → s.Holds u c → t = u) ∧
      (∀ t c p rest, s.chains t = .code (some c) p :: rest → s.Holds t c) ∧
      ∀ t e, (s.view t).next ≠ .fault e := by
  have shared := shared_of_launched reached
  refine ⟨shared.held_iff, fun t u c => shared.exclusive, ?_, ?_⟩
  · intro t c p rest top
    exact holds_of_handler (shape_of_launched reached t) top
  · intro t e
    exact no_fault (shape_of_launched reached t) e

/-- A dispatch on `outer` whose handler dispatches on `inner`, with the commands of the shared
    counter. -/
def nestedDispatch (outer inner : Bool) : Prog ThreadsafeDispatchDemo.model Bool Int :=
  .dispatch ThreadsafeDispatchDemo.CounterCmd (.holds (ThreadsafeDispatchDemo.increment 1)) outer
    (fun _ _ =>
      .dispatch ThreadsafeDispatchDemo.CounterCmd (.holds (ThreadsafeDispatchDemo.increment 1)) inner
        (fun _ _ => .done) .done)
    .done

/-- Two threads that nest in opposite orders. -/
def oppositeThreads : System Bool ThreadsafeDispatchDemo.model Bool Int (.mutex Bool) :=
  .launch (.mutex Bool) (fun t => nestedDispatch t (!t)) fun _ => 0

theorem dispatches_exclude_each_other_opposite :
    ∃ s, oppositeThreads.Reaches s ∧ s.Holds true true ∧ ¬s.Holds false true := by
  have ran : (oppositeThreads.runSchedule [true, true]).isSome = true := rfl
  have reached := reaches_of_runSchedule (Option.some_get ran).symm
  have holds : ((oppositeThreads.runSchedule [true, true]).get ran).Holds true true :=
    List.mem_singleton.mpr rfl
  refine ⟨_, reached, holds, ?_⟩
  intro other
  have excluded := dispatches_exclude_each_other _ _ _ reached
  exact absurd (excluded.2.1 true false true holds other) (by decide)

/-! ### Deadlock -/

omit [DecidableEq ι] [DecidableEq B] [DecidableEq C] in
/-- A thread waits right at the lock of a dispatch. -/
theorem top_of_waitsFor {s : System ι M C V L} {t : ι} {c : C} (shape : Shape (s.chains t))
    (waits : s.WaitsFor t c) :
    ∃ d owner p rest, s.chains t = .body d [.lock, .switch, .unlock] :: .code owner p :: rest ∧
      Under owner rest ∧ d.ctx = c := by
  obtain ⟨d, locking, rfl⟩ := waits
  generalize s.chains t = chain at shape locking
  cases shape with
  | finished => cases locking
  | code below => cases locking
  | @body e owner p rest left suffix below =>
      simp only [List.mem_cons, List.not_mem_nil, or_false] at suffix
      rcases suffix with rfl | rfl | rfl | rfl
      · obtain rfl := List.mem_singleton.mp locking
        exact ⟨d, owner, p, rest, rfl, below, rfl⟩
      · cases locking
      · cases locking
      · cases locking

omit [DecidableEq ι] in
/-- A thread that has not returned and cannot step waits for a mutex that some thread holds. -/
theorem waits_of_stuck {s : System ι M C V (.mutex C)}
    (shared : LockModel.MutexShared s.locks fun u => heldCtxs (s.chains u)) {t : ι}
    (shape : Shape (s.chains t)) (stuck : ∀ m, ¬(s.view t).Step m) (unfinished : s.chains t ≠ []) :
    ∃ c, s.WaitsFor t c ∧ ∃ u, s.Holds u c := by
  have shape : Shape (s.view t).stack := shape
  obtain ⟨d, owner, p, rest, top, _, refused⟩ := top_of_stuck shape unfinished stuck
  have top : s.chains t = .body d [.lock, .switch, .unlock] :: .code owner p :: rest := top
  refine ⟨d.ctx, ⟨d, ?_, rfl⟩, ?_⟩
  · rw [top]
    exact List.mem_singleton.mpr rfl
  · exact (shared.held_iff d.ctx).mp (LockModel.acquireMutex_eq_none_iff.mp refused)

omit [DecidableEq ι] in
/-- A thread that waits for a mutex that some thread holds cannot step. -/
theorem blocked_of_waitsFor {s : System ι M C V (.mutex C)}
    (shared : LockModel.MutexShared s.locks fun u => heldCtxs (s.chains u)) {t u : ι} {c : C}
    (shape : Shape (s.chains t)) (waits : s.WaitsFor t c) (holds : s.Holds u c)
    (m : Machine M C V (.mutex C)) : ¬(s.view t).Step m := by
  obtain ⟨d, owner, p, rest, top, below, rfl⟩ := top_of_waitsFor shape waits
  have top : (s.view t).stack = .body d [.lock, .switch, .unlock] :: .code owner p :: rest := top
  have busy : (LockModel.mutex C).acquire d.ctx (s.view t).locks = none :=
    LockModel.acquireMutex_eq_none_iff.mpr ((shared.held_iff d.ctx).mpr ⟨u, holds⟩)
  intro step
  simp only [Machine.Step, Machine.next, top, busy] at step
  cases step

/-- Where nothing goes on, all threads that have not returned wait in a circle. -/
theorem waitCycle_of_stuck {programs : ι → Prog M C V} {contexts : C → V}
    {s : System ι M C V (.mutex C)}
    (reached : (System.launch (.mutex C) programs contexts).Reaches s) (stuck : ∀ s', ¬s.Step s')
    (unfinished : ¬s.Final) : LockModel.WaitCycle s.Holds s.WaitsFor {t | s.chains t ≠ []} := by
  constructor
  · obtain ⟨t, busy⟩ := not_forall.mp unfinished
    exact ⟨t, busy⟩
  · intro t busy
    have still (m : Machine M C V (.mutex C)) : ¬(s.view t).Step m := fun step =>
      stuck _ (.thread step)
    obtain ⟨c, waits, u, holds⟩ :=
      waits_of_stuck (shared_of_launched reached) (shape_of_launched reached t) still busy
    refine ⟨c, waits, u, ?_, holds⟩
    intro empty
    rw [Holds, empty] at holds
    cases holds

/-- The threads of a circle stay where they are for ever. -/
theorem frozen_of_waitCycle {programs : ι → Prog M C V} {contexts : C → V}
    {s s' : System ι M C V (.mutex C)} {S : Set ι}
    (reached : (System.launch (.mutex C) programs contexts).Reaches s)
    (circle : LockModel.WaitCycle s.Holds s.WaitsFor S) (later : s.Reaches s') :
    ∀ t ∈ S, s'.chains t = s.chains t := by
  induction later with
  | refl =>
      intro t _
      rfl
  | @tail s₁ s₂ before last ih =>
      obtain ⟨step⟩ := last
      rename_i t m
      have reached₁ := reached.trans before
      intro u member
      by_cases same : u = t
      · subst u
        obtain ⟨c, ⟨d, locking, ctx⟩, v, inside, holds⟩ := circle.waiting t member
        rw [← ih t member] at locking
        rw [Holds, ← ih v inside] at holds
        have blocked := blocked_of_waitsFor (shared_of_launched reached₁)
          (shape_of_launched reached₁ t) ⟨d, locking, ctx⟩ holds m
        exact absurd step blocked
      · rw [chains_after_of_ne s₁ m same]
        exact ih u member

theorem not_final_of_waitCycle {programs : ι → Prog M C V} {contexts : C → V}
    {s s' : System ι M C V (.mutex C)} {S : Set ι}
    (reached : (System.launch (.mutex C) programs contexts).Reaches s)
    (circle : LockModel.WaitCycle s.Holds s.WaitsFor S) (later : s.Reaches s') : ¬s'.Final := by
  intro final
  obtain ⟨t, member⟩ := circle.nonempty
  obtain ⟨c, ⟨d, locking, _⟩, _⟩ := circle.waiting t member
  rw [← frozen_of_waitCycle reached circle later t member, final t] at locking
  cases locking

/-! ### Termination -/

/-- A step of the system makes the call chain of one thread smaller. -/
theorem interleaves_of_step {s s' : System ι M C V L} (shape : ∀ t, Shape (s.chains t))
    (step : s.Step s') : Interleaves (flip Follows) s'.chains s.chains := by
  obtain ⟨step⟩ := step
  rename_i t m
  have move : Move (s.view t) m := Shape.move_of_step (shape t) step
  exact ⟨t, m.stack, move.follows, rfl⟩

/-- Finitely many threads do not run for ever, whatever the locks do. -/
theorem ends_of_launched [Finite ι] {programs : ι → Prog M C V} {contexts : C → V}
    (run : Nat → System ι M C V L) (launched : run 0 = .launch L programs contexts) :
    ∃ n, ¬(run n).Step (run (n + 1)) := by
  by_contra forever
  push Not at forever
  have reached (n : Nat) : (System.launch L programs contexts).Reaches (run n) := by
    induction n with
    | zero =>
        rw [launched]
        exact .refl
    | succ n ih => exact .tail ih (forever n)
  have smaller (n : Nat) : Interleaves (flip Follows) (run (n + 1)).chains (run n).chains :=
    interleaves_of_step (shape_of_launched (reached n)) (forever n)
  obtain ⟨n, last⟩ := interleaving_ends wellFounded_follows fun n => (run n).chains
  exact last (smaller n)

/-- Threads with arbitrarily nested dispatches on mutexes, finitely many of them.  Every run ends.  A
    reachable state from which no thread can step is either the end of all threads, or all threads that
    have not returned wait in a circle for mutexes that they hold; and threads that wait in a circle in a
    reachable state never move again. -/
theorem deadlock_is_wait_circle [Finite ι] (programs : ι → Prog M C V) (contexts : C → V) :
    (∀ run : Nat → System ι M C V (.mutex C), run 0 = .launch (.mutex C) programs contexts →
      ∃ n, ¬(run n).Step (run (n + 1))) ∧
    (∀ s : System ι M C V (.mutex C), (System.launch (.mutex C) programs contexts).Reaches s →
      (∀ s', ¬s.Step s') →
        s.Final ∨ LockModel.WaitCycle s.Holds s.WaitsFor {t | s.chains t ≠ []}) ∧
    ∀ (s : System ι M C V (.mutex C)) (S : Set ι),
      (System.launch (.mutex C) programs contexts).Reaches s →
        LockModel.WaitCycle s.Holds s.WaitsFor S →
          ∀ s', s.Reaches s' → ¬s'.Final ∧ ∀ t ∈ S, s'.chains t = s.chains t := by
  refine ⟨ends_of_launched, ?_, ?_⟩
  · intro s reached stuck
    by_cases final : s.Final
    · exact .inl final
    · exact .inr (waitCycle_of_stuck reached stuck final)
  · intro s S reached circle s' later
    exact ⟨not_final_of_waitCycle reached circle later, frozen_of_waitCycle reached circle later⟩

/-- Both threads take their outer lock, and then each waits for the other. -/
theorem deadlock_is_wait_circle_opposite :
    ∃ s, oppositeThreads.Reaches s ∧
      LockModel.WaitCycle s.Holds s.WaitsFor {t | s.chains t ≠ []} := by
  let schedule := [true, true, true, true, false, false, false, false]
  have ran : (oppositeThreads.runSchedule schedule).isSome = true := rfl
  have reached := reaches_of_runSchedule (Option.some_get ran).symm
  have stuck : ∀ s', ¬((oppositeThreads.runSchedule schedule).get ran).Step s' := by
    rintro s' ⟨step⟩
    rename_i t m
    have blocked : (((oppositeThreads.runSchedule schedule).get ran).view t).next = .blocked := by
      cases t <;> rfl
    exact absurd (blocked.symm.trans step) (by simp)
  have circles := (deadlock_is_wait_circle (fun t => nestedDispatch t (!t)) fun _ => 0).2.1
  rcases circles _ reached stuck with final | circle
  · have busy : (((oppositeThreads.runSchedule schedule).get ran).chains true).length = 4 := rfl
    rw [final true] at busy
    cases busy
  · exact ⟨_, reached, circle⟩

/-! ### Contexts taken in a fixed order -/

section Order

variable {ρ : Type} [LinearOrder ρ] (rank : C → ρ)

/-- The code that a frame has still to run, or may call, climbs. -/
def ClimbingFrame : Frame M C V → Prop
  | .code owner p => Prog.Climbs rank owner p
  | .body d _ => ∀ i x, Prog.Climbs rank (some d.ctx) (d.handlers i x)

/-- Each dispatch of a call chain is on a context above those of the dispatches that led to it. -/
structure ClimbingChain (chain : List (Frame M C V)) : Prop where
  frames : ∀ frame ∈ chain, ClimbingFrame rank frame
  ordered : (activeCtxs chain).Pairwise fun inner outer => rank outer < rank inner

variable {rank}

omit [DecidableEq ι] [DecidableEq B] [DecidableEq C] in
theorem ClimbingChain.tail {frame : Frame M C V} {rest : List (Frame M C V)}
    (climbing : ClimbingChain rank (frame :: rest)) : ClimbingChain rank rest where
  frames other member := climbing.frames other (List.mem_cons_of_mem frame member)
  ordered := (List.pairwise_append.mp climbing.ordered).2.1

omit [DecidableEq ι] [DecidableEq B] [DecidableEq C] in
theorem ClimbingChain.head {frame : Frame M C V} {rest : List (Frame M C V)}
    (climbing : ClimbingChain rank (frame :: rest)) : ClimbingFrame rank frame :=
  climbing.frames frame List.mem_cons_self

omit [DecidableEq ι] [DecidableEq B] [DecidableEq C] in
/-- The innermost frame may be exchanged for one that is active in the same context. -/
theorem ClimbingChain.exchange {frame frame' : Frame M C V} {rest : List (Frame M C V)}
    (climbing : ClimbingChain rank (frame :: rest)) (mine : ClimbingFrame rank frame')
    (same : frame'.activeCtx = frame.activeCtx) : ClimbingChain rank (frame' :: rest) where
  frames := List.forall_mem_cons.mpr ⟨mine, climbing.tail.frames⟩
  ordered := by
    have ordered := climbing.ordered
    rw [activeCtxs, List.flatMap_cons] at ordered ⊢
    rw [same]
    exact ordered

omit [DecidableEq ι] [DecidableEq B] [DecidableEq C] in
/-- The statements of a body do not matter. -/
theorem ClimbingChain.body {d : ActiveCall M C V} {left left' : List BodyStmt}
    {rest : List (Frame M C V)} (climbing : ClimbingChain rank (.body d left :: rest)) :
    ClimbingChain rank (.body d left' :: rest) :=
  climbing.exchange climbing.head rfl

omit [DecidableEq ι] [DecidableEq B] [DecidableEq C] in
/-- Code may be called from any climbing chain. -/
theorem ClimbingChain.code {owner : Option C} {p : Prog M C V} {rest : List (Frame M C V)}
    (climbing : ClimbingChain rank rest) (mine : Prog.Climbs rank owner p) :
    ClimbingChain rank (.code owner p :: rest) where
  frames := List.forall_mem_cons.mpr ⟨mine, climbing.frames⟩
  ordered := climbing.ordered

omit [DecidableEq ι] [DecidableEq B] [DecidableEq C] in
/-- A dispatch above the owner of the code that makes it is above all dispatches of the chain. -/
theorem ClimbingChain.above {owner : Option C} {rest : List (Frame M C V)}
    (climbing : ClimbingChain rank rest) (below : Under owner rest) {ctx : C}
    (higher : ∀ c, owner = some c → rank c < rank ctx) : ∀ c ∈ activeCtxs rest, rank c < rank ctx := by
  cases below with
  | caller =>
      intro c member
      cases member
  | @handler d owner p rest below =>
      intro c member
      have ordered := climbing.ordered
      change ((d.ctx :: activeCtxs rest).Pairwise fun inner outer => rank outer < rank inner) at ordered
      have member : c ∈ d.ctx :: activeCtxs rest := member
      rcases List.mem_cons.mp member with rfl | inner
      · exact higher d.ctx rfl
      · exact lt_trans (List.rel_of_pairwise_cons ordered inner) (higher d.ctx rfl)

omit [DecidableEq ι] [DecidableEq B] in
theorem ClimbingChain.move {m m' : Machine M C V L} (climbing : ClimbingChain rank m.stack)
    (move : Move m m') : ClimbingChain rank m'.stack := by
  cases move with
  | returned top _ =>
      rw [top] at climbing
      exact climbing.tail
  | updated top _ =>
      rw [top] at climbing
      cases climbing.head with
      | update later => exact climbing.exchange (later _) rfl
  | @entered owner d k rest top below =>
      rw [top] at climbing
      cases climbing.head with
      | dispatch above inside later =>
          have behind : ClimbingChain rank (.code owner k :: rest) := climbing.exchange later rfl
          constructor
          · exact List.forall_mem_cons.mpr ⟨inside, behind.frames⟩
          · exact List.pairwise_cons.mpr ⟨climbing.tail.above below above, behind.ordered⟩
  | locked top _ _ =>
      rw [top] at climbing
      exact climbing.body
  | skipped top _ _ =>
      rw [top] at climbing
      exact climbing.body
  | @called owner d p rest c top _ _ =>
      rw [top] at climbing
      have inside : ∀ i x, Prog.Climbs rank (some d.ctx) (d.handlers i x) := climbing.head
      have switched : ClimbingChain rank (.body d [.unlock] :: .code owner p :: rest) := climbing.body
      exact switched.code (inside c.1 c.2)
  | unlocked top _ =>
      rw [top] at climbing
      exact climbing.body
  | left top _ =>
      rw [top] at climbing
      exact climbing.tail

omit [DecidableEq ι] [DecidableEq B] [DecidableEq C] in
theorem heldCtxs_subset_activeCtxs {chain : List (Frame M C V)} {c : C} (held : c ∈ heldCtxs chain) :
    c ∈ activeCtxs chain := by
  obtain ⟨frame, member, holds⟩ := List.mem_flatMap.mp held
  refine List.mem_flatMap.mpr ⟨frame, member, ?_⟩
  unfold Frame.heldCtx at holds
  split at holds
  · exact holds
  · exact holds
  · cases holds

omit [DecidableEq ι] [DecidableEq B] [DecidableEq C] in
/-- A thread with a climbing chain waits above all that it holds. -/
theorem waits_above {s : System ι M C V L} {t : ι} {j k : C} (shape : Shape (s.chains t))
    (climbing : ClimbingChain rank (s.chains t)) (holds : s.Holds t j) (waits : s.WaitsFor t k) :
    rank j < rank k := by
  obtain ⟨d, owner, p, rest, top, below, rfl⟩ := top_of_waitsFor shape waits
  rw [Holds, top] at holds
  rw [top] at climbing
  have outer : j ∈ activeCtxs rest := heldCtxs_subset_activeCtxs holds
  exact List.rel_of_pairwise_cons climbing.ordered outer

theorem climbing_of_launched {programs : ι → Prog M C V} {contexts : C → V} {s : System ι M C V L}
    (climbs : ∀ t, Prog.Climbs rank none (programs t))
    (reached : (System.launch L programs contexts).Reaches s) (t : ι) :
    ClimbingChain rank (s.chains t) := by
  have initial (t : ι) : ClimbingChain rank ((System.launch L programs contexts).chains t) := by
    constructor
    · exact List.forall_mem_singleton.mpr (climbs t)
    · exact .nil
  have kept (s : System ι M C V L) (t : ι) (m : Machine M C V L)
      (climbing : ∀ u, ClimbingChain rank (s.chains u)) (move : Move (s.view t) m) :
      ∀ u, ClimbingChain rank ((s.after t m).chains u) := by
    intro u
    by_cases same : u = t
    · subst u
      rw [chains_after_self]
      have mine : ClimbingChain rank (s.view t).stack := climbing t
      exact mine.move move
    · rw [chains_after_of_ne s m same]
      exact climbing u
  exact (invariant_of_launched initial kept reached).2 t

/-- Finitely many threads whose nested dispatches take their contexts in one fixed order never deadlock:
    every run ends, every reachable state is the end of all threads or has a next step, and at the end
    every mutex is free. -/
theorem ordered_contexts_never_deadlock [Finite ι] (programs : ι → Prog M C V) (contexts : C → V)
    (climbs : ∀ t, Prog.Climbs rank none (programs t)) :
    (∀ run : Nat → System ι M C V (.mutex C), run 0 = .launch (.mutex C) programs contexts →
      ∃ n, ¬(run n).Step (run (n + 1))) ∧
    (∀ s : System ι M C V (.mutex C), (System.launch (.mutex C) programs contexts).Reaches s →
      s.Final ∨ ∃ s', s.Step s') ∧
    ∀ s : System ι M C V (.mutex C), (System.launch (.mutex C) programs contexts).Reaches s →
      s.Final → ∀ c, LockModel.mutexHeld s.locks c = false := by
  refine ⟨ends_of_launched, ?_, ?_⟩
  · intro s reached
    by_contra stuck
    push Not at stuck
    obtain ⟨unfinished, still⟩ := stuck
    have climbing (t : ι) (j k : C) (holds : s.Holds t j) (waits : s.WaitsFor t k) :
        rank j < rank k :=
      waits_above (shape_of_launched reached t) (climbing_of_launched climbs reached t) holds waits
    have circle : LockModel.WaitCycle s.Holds s.WaitsFor {t | s.chains t ≠ []} :=
      waitCycle_of_stuck reached still unfinished
    exact LockModel.not_waitCycle_of_climbing rank climbing _ circle
  · intro s reached final c
    cases held : LockModel.mutexHeld s.locks c with
    | false => rfl
    | true =>
        obtain ⟨t, holds⟩ := ((shared_of_launched reached).held_iff c).mp held
        rw [final t] at holds
        cases holds

/-- Two threads that nest in the same order: one holds the outer lock, the other one waits for it. -/
theorem ordered_contexts_never_deadlock_same_order :
    ∃ s : System Bool ThreadsafeDispatchDemo.model Bool Int (.mutex Bool),
      (System.launch (.mutex Bool) (fun _ => nestedDispatch false true) fun _ => 0).Reaches s ∧
        s.WaitsFor false false ∧ (s.Final ∨ ∃ s', s.Step s') := by
  let start : System Bool ThreadsafeDispatchDemo.model Bool Int (.mutex Bool) :=
    System.launch (.mutex Bool) (fun _ => nestedDispatch false true) fun _ => 0
  have climbs (_ : Bool) : Prog.Climbs (id : Bool → Bool) none (nestedDispatch false true) := by
    refine .dispatch (fun c owned => by cases owned) (fun i x => ?_) .done
    refine .dispatch ?_ (fun j y => .done) .done
    intro c owned
    obtain rfl := Option.some.inj owned
    decide
  have ran : (start.runSchedule [true, true, false]).isSome = true := rfl
  have reached := reaches_of_runSchedule (Option.some_get ran).symm
  refine ⟨_, reached, ⟨_, List.mem_singleton.mpr rfl, rfl⟩, ?_⟩
  exact (ordered_contexts_never_deadlock _ _ climbs).2.1 _ reached

end Order

/-! ### Contexts taken in opposite orders -/

section Opposite

/-- The thread dispatches on `outer`, and the handler that the value selects begins with a dispatch on
    `inner`. -/
structure Nests (p : Prog M C V) (outer inner : C) where
  U : SumInstance B
  c : Coproduct (U.Payload M)
  handlers : (i : Fin U.size) → U.Payload M i → Prog M C V
  next : Prog M C V
  call : ActiveCall M C V
  rest : Prog M C V
  program : p = .dispatch U (.holds c) outer handlers next
  handler : handlers c.1 c.2 = .dispatch call.U call.self call.ctx call.handlers rest
  target : call.ctx = inner

/-- The outer dispatch. -/
def Nests.outerCall {p : Prog M C V} {outer inner : C} (nests : Nests p outer inner) :
    ActiveCall M C V :=
  { U := nests.U, self := .holds nests.c, ctx := outer, handlers := nests.handlers }

/-- The system after a move of one thread. -/
theorem moved (s : System ι M C V L) (t : ι) {m : Machine M C V L} (move : Move (s.view t) m) :
    ∃ s', s.Step s' ∧ s'.chains = Function.update s.chains t m.stack ∧ s'.locks = m.locks :=
  ⟨s.after t m, .thread move.step, rfl, rfl⟩

/-- A thread that nests comes as far as the inner lock, if the outer one is free. -/
theorem Nests.reaches {p : Prog M C V} {outer inner : C} (nests : Nests p outer inner)
    {s : System ι M C V (.mutex C)} {t : ι} (chain : s.chains t = [.code none p])
    (free : LockModel.mutexHeld s.locks outer = false) :
    ∃ s', s.Reaches s' ∧
      s'.chains = Function.update s.chains t
        [.body nests.call [.lock, .switch, .unlock], .code (some outer) nests.rest,
          .body nests.outerCall [.unlock], .code none nests.next] ∧
      (LockModel.mutex C).acquire outer s.locks = some s'.locks := by
  obtain ⟨locks, taken⟩ := LockModel.acquire_of_not_held free
  have top₀ : (s.view t).stack =
      .code none (.dispatch nests.U (.holds nests.c) outer nests.handlers nests.next) :: [] := by
    rw [← nests.program]
    exact chain
  obtain ⟨s₁, enter, chains₁, locks₁⟩ := moved s t (Move.entered (d := nests.outerCall) top₀ .caller)
  have top₁ : (s₁.view t).stack =
      .body nests.outerCall [.lock, .switch, .unlock] :: .code none nests.next :: [] := by
    rw [view, chains₁, Function.update_self]
  have taken₁ : (LockModel.mutex C).acquire outer (s₁.view t).locks = some locks := by
    rw [view, locks₁]
    exact taken
  obtain ⟨s₂, lock, chains₂, locks₂⟩ := moved s₁ t (Move.locked top₁ .caller taken₁)
  have top₂ : (s₂.view t).stack =
      .body nests.outerCall [.switch, .unlock] :: .code none nests.next :: [] := by
    rw [view, chains₂, Function.update_self]
  obtain ⟨s₃, call, chains₃, locks₃⟩ := moved s₂ t (Move.called top₂ .caller rfl)
  have top₃ : (s₃.view t).stack =
      .code (some outer) (.dispatch nests.call.U nests.call.self nests.call.ctx nests.call.handlers
        nests.rest) :: .body nests.outerCall [.unlock] :: .code none nests.next :: [] := by
    rw [view, chains₃, Function.update_self, ← nests.handler]
    rfl
  have inside : Under (some outer) (.body nests.outerCall [.unlock] :: .code none nests.next :: []) :=
    .handler (d := nests.outerCall) .caller
  obtain ⟨s₄, enter', chains₄, locks₄⟩ := moved s₃ t (Move.entered top₃ inside)
  refine ⟨s₄, .tail (.tail (.tail (.single enter) lock) call) enter', ?_, ?_⟩
  · rw [chains₄, chains₃, chains₂, chains₁, Function.update_idem, Function.update_idem,
      Function.update_idem]
  · rw [locks₄]
    change (LockModel.mutex C).acquire outer s.locks = some s₃.locks
    rw [locks₃]
    change (LockModel.mutex C).acquire outer s.locks = some s₂.locks
    rw [locks₂]
    exact taken

/-- Two threads that nest the same two contexts in opposite orders can deadlock, whatever the variant
    lists, the values, the rest of their code and the other threads are: from some reachable state on,
    the two threads never move again and the system does not come to its end. -/
theorem opposite_orders_deadlock (programs : ι → Prog M C V) (contexts : C → V) (t u : ι) (a b : C)
    (threads : t ≠ u) (distinct : a ≠ b) (first : Nests (programs t) a b)
    (second : Nests (programs u) b a) :
    ∃ s : System ι M C V (.mutex C), (System.launch (.mutex C) programs contexts).Reaches s ∧
      ∀ s', s.Reaches s' →
        ¬s'.Final ∧ s'.chains t = s.chains t ∧ s'.chains u = s.chains u := by
  obtain ⟨s₁, toFirst, chains₁, locks₁⟩ :=
    first.reaches (s := .launch (.mutex C) programs contexts) (t := t) rfl rfl
  have chain : s₁.chains u = [.code none (programs u)] := by
    rw [chains₁, Function.update_of_ne (Ne.symm threads)]
    rfl
  have free : LockModel.mutexHeld s₁.locks b = false := by
    rw [LockModel.mutexHeld_of_acquire_of_ne locks₁ distinct.symm]
    rfl
  obtain ⟨s₂, toSecond, chains₂, locks₂⟩ := second.reaches chain free
  have reached := toFirst.trans toSecond
  have firstChain : s₂.chains t = [.body first.call [.lock, .switch, .unlock],
      .code (some a) first.rest, .body first.outerCall [.unlock], .code none first.next] := by
    rw [chains₂, Function.update_of_ne threads, chains₁, Function.update_self]
  have secondChain : s₂.chains u = [.body second.call [.lock, .switch, .unlock],
      .code (some b) second.rest, .body second.outerCall [.unlock], .code none second.next] := by
    rw [chains₂, Function.update_self]
  have circle : LockModel.WaitCycle s₂.Holds s₂.WaitsFor {t, u} := by
    constructor
    · exact ⟨t, .inl rfl⟩
    · rintro w (rfl | rfl)
      · refine ⟨b, ⟨first.call, ?_, first.target⟩, u, .inr rfl, ?_⟩
        · rw [firstChain]
          exact List.mem_singleton.mpr rfl
        · rw [Holds, secondChain]
          exact List.mem_singleton.mpr rfl
      · refine ⟨a, ⟨second.call, ?_, second.target⟩, t, .inl rfl, ?_⟩
        · rw [secondChain]
          exact List.mem_singleton.mpr rfl
        · rw [Holds, firstChain]
          exact List.mem_singleton.mpr rfl
  refine ⟨s₂, reached, ?_⟩
  intro s' later
  have frozen := frozen_of_waitCycle reached circle later
  exact ⟨not_final_of_waitCycle reached circle later, frozen t (.inl rfl), frozen u (.inr rfl)⟩

def nestedDispatchNests (outer inner : Bool) : Nests (nestedDispatch outer inner) outer inner where
  U := ThreadsafeDispatchDemo.CounterCmd
  c := ThreadsafeDispatchDemo.increment 1
  handlers := fun _ _ =>
    .dispatch ThreadsafeDispatchDemo.CounterCmd (.holds (ThreadsafeDispatchDemo.increment 1)) inner
      (fun _ _ => .done) .done
  next := .done
  call :=
    { U := ThreadsafeDispatchDemo.CounterCmd
      self := .holds (ThreadsafeDispatchDemo.increment 1)
      ctx := inner
      handlers := fun _ _ => .done }
  rest := .done
  program := rfl
  handler := rfl
  target := rfl

theorem opposite_orders_deadlock_two_threads :
    ∃ s, oppositeThreads.Reaches s ∧ ∀ s', s.Reaches s' → ¬s'.Final := by
  obtain ⟨s, reached, forever⟩ :=
    opposite_orders_deadlock (fun t => nestedDispatch t (!t)) (fun _ => 0) true false true false
      (by decide) (by decide) (nestedDispatchNests true false) (nestedDispatchNests false true)
  exact ⟨s, reached, fun s' later => (forever s' later).1⟩

end Opposite

end System

end GenericSumType
