/-
Module: GenericSumType.Proofs.SharedCounter
Layer: Proofs
Purpose: The shared counter of the demo under any interleaving of its workers: the general serialisation
  result, and what it says about `on_increment` and `on_decrement` as long as no sum overflows.
Imports: Mathlib, GenericSumType.Proofs.SharedDispatch, GenericSumType.Examples.ThreadsafeDispatchDemo
Trusted boundary: none
Main exports: effect_apply, serial_commands, shared_dispatch_is_serial
Open obligations: none
-/
import Mathlib
import GenericSumType.Proofs.SharedDispatch
import GenericSumType.Examples.ThreadsafeDispatchDemo

namespace GenericSumType

namespace ThreadsafeDispatchDemo

/-- What a command adds to the counter. -/
def incrementAmount : Command → Int
  | ⟨⟨0, _⟩, c⟩ => CmdIncrement.amount c
  | ⟨⟨1, _⟩, _⟩ => 0

/-- What a command takes from the counter. -/
def decrementAmount : Command → Int
  | ⟨⟨0, _⟩, _⟩ => 0
  | ⟨⟨1, _⟩, c⟩ => CmdDecrement.amount c

def change (cmd : Command) : Int := incrementAmount cmd - decrementAmount cmd

variable (L : LongType)

theorem effect_apply : ∀ (cmd : Command) (v : Int),
    (apply L cmd).code.effect v = L.result (v + change cmd)
  | ⟨⟨0, _⟩, c⟩, v => by
      simp only [change, incrementAmount, decrementAmount, Int.sub_zero]
      rfl
  | ⟨⟨1, _⟩, c⟩, v => by
      simp only [change, incrementAmount, decrementAmount, Int.zero_sub, ← Int.sub_eq_add_neg]
      rfl

theorem toCall_apply_injective :
    Function.Injective fun cmd : Command => (apply L cmd).toCall () := by
  intro first second same
  simpa [apply, LeafCall.toCall] using same

/-- As long as every intermediate sum is in range, a series of commands adds up. -/
theorem serial_commands {ι : Type} {order : List (ι × Command)} {initial : Int}
    (inRange : ∀ k, L.InRange (initial + ((order.take k).map fun e => change e.2).sum)) :
    (leafCode model Int).serial (order.map fun e => (e.1, apply L e.2)) initial =
      initial + (order.map fun e => change e.2).sum := by
  induction order generalizing initial with
  | nil => simp [JobCode.serial]
  | cons e order ih =>
      have first : L.result (initial + change e.2) = initial + change e.2 := by
        have step := inRange 1
        simp only [List.take_succ_cons, List.take_zero, List.map_cons, List.map_nil, List.sum_cons,
          List.sum_nil, Int.add_zero] at step
        exact if_pos step
      have later : ∀ k, L.InRange
          (initial + change e.2 + ((order.take k).map fun e => change e.2).sum) := by
        intro k
        have step := inRange (k + 1)
        simp only [List.take_succ_cons, List.map_cons, List.sum_cons] at step
        rw [Int.add_assoc]
        exact step
      have rest := ih later
      have stepped : (leafCode model Int).atomic (apply L e.2) initial = initial + change e.2 :=
        (effect_apply L e.2 initial).trans first
      simp only [JobCode.serial, List.map_cons, List.foldl_cons, List.sum_cons] at rest ⊢
      rw [stepped, rest, Int.add_assoc]

theorem apply_injective : Function.Injective (apply L) := by
  intro first second same
  exact toCall_apply_injective L (congrArg (fun d => d.toCall ()) same)

theorem serial_eq_foldlM {B ι : Type} [DecidableEq B] {M : TypeModel B} {V : Type}
    (order : List (ι × LeafCall M V)) (v : V) :
    order.foldlM (fun v e => e.2.execute v) v = .ok ((leafCode M V).serial order v) := by
  induction order generalizing v with
  | nil => rfl
  | cons e order ih =>
      rw [List.foldlM_cons, execute_eq, ok_bind, ih]
      rfl

/-- Total of all increments and decrements, thread by thread. -/
theorem sum_change {ι : Type} [DecidableEq ι] [Fintype ι] {commands : ι → List Command}
    {issued : List (ι × Command)} (each : ∀ t, JobCode.jobsOf issued t = commands t) :
    (issued.map fun e => change e.2).sum =
      ∑ t, ((commands t).map incrementAmount).sum - ∑ t, ((commands t).map decrementAmount).sum := by
  rw [JobCode.sum_jobsOf change, ← Finset.sum_sub_distrib]
  apply Finset.sum_congr rfl
  intro t _
  rw [each t]
  induction commands t with
  | nil => rfl
  | cons cmd rest ih =>
      simp only [List.map_cons, List.sum_cons, ih, change]
      omega

/-- Any number of threads that dispatch on one shared context under its mutex.  Every state that is not
    final has a next step; in a final state the context is what the same calls leave behind when each
    is executed at once, in the order in which the lock was taken, which keeps the order of every
    thread.  For the commands of the shared counter, as long as no sum of that order overflows, this
    is the initial value plus all increments minus all decrements. -/
theorem shared_dispatch_is_serial :
    (∀ {B ι C V : Type} [DecidableEq B] [DecidableEq ι] [DecidableEq C] {M : TypeModel B} (c : C)
      (calls : ι → List (LeafCall M V)) (contexts : C → V) (s : System ι M C V (.mutex C)),
      (System.start (.mutex C) c calls contexts).Reaches s →
        (¬ s.Final → ∃ s', s.Step s') ∧
        (s.Final → ∃ order : List (ι × LeafCall M V),
          s.log = order.map (fun e => (e.1, e.2.toCall c)) ∧
          (∀ t, JobCode.jobsOf order t = calls t) ∧
          order.foldlM (fun v e => e.2.execute v) (contexts c) = .ok (s.contexts c))) ∧
    ∀ {ι : Type} [DecidableEq ι] [Fintype ι] (L : LongType) (commands : ι → List Command)
      (initial : Int) (s : System ι model Unit Int (.mutex Unit)),
      (System.start (.mutex Unit) () (fun t => (commands t).map (apply L))
        fun _ => initial).Reaches s → s.Final →
      ∀ order : List (ι × Command), s.log = order.map (fun e => (e.1, (apply L e.2).toCall ())) →
        (∀ k, L.InRange (initial + ((order.take k).map fun e => change e.2).sum)) →
        s.contexts () = initial + ∑ t, ((commands t).map incrementAmount).sum -
          ∑ t, ((commands t).map decrementAmount).sum := by
  constructor
  · intro B ι C V _ _ _ M c calls contexts s reached
    obtain ⟨phase, a, sim, behind⟩ := simulates_of_reached reached
    refine ⟨enabled_of_not_final sim, ?_⟩
    intro final
    obtain ⟨value, each⟩ := serial_of_final sim ((leafCode M V).serialized_of_reached behind) final
    exact ⟨a.log, sim.log, each, by rw [serial_eq_foldlM, value]⟩
  · intro ι _ _ L commands initial s reached final order logged inRange
    obtain ⟨phase, a, sim, behind⟩ := simulates_of_reached reached
    obtain ⟨value, each⟩ :=
      serial_of_final sim ((leafCode model Int).serialized_of_reached behind) final
    obtain ⟨issued, read, issuedOf⟩ := JobCode.log_of_jobs (apply_injective L) each
    have same : issued = order := by
      have twice := sim.log.symm.trans logged
      rw [read, List.map_map] at twice
      have injective : Function.Injective fun e : ι × Command => (e.1, (apply L e.2).toCall ()) := by
        rintro ⟨t, first⟩ ⟨u, second⟩ equal
        simp only [Prod.mk.injEq] at equal
        rw [Prod.mk.injEq]
        exact ⟨equal.1, toCall_apply_injective L equal.2⟩
      exact List.map_injective_iff.mpr injective twice
    subst order
    rw [value, read, serial_commands L inRange, sum_change issuedOf, add_sub_assoc]

/-- A 64-bit `long`. -/
def long64 : LongType where
  least := -2 ^ 63
  greatest := 2 ^ 63 - 1
  least_le := by decide
  le_greatest := by decide
  overflow := id

/-- One thread adds five while the other one takes three. -/
def race : Bool → List Command
  | true => [increment 5]
  | false => [decrement 3]

def raceStart : System Bool model Unit Int (.mutex Unit) :=
  System.start (.mutex Unit) () (fun t => (race t).map (apply long64)) fun _ => 0

/-- Both threads enter before either locks, and the second one waits for the first. -/
def raceSchedule : List Bool :=
  [true, false, false, false, false, false, false, false, true, true, true, true, true, true, false,
    false, true, true]

theorem race_settles :
    ∃ s, raceStart.Reaches s ∧ s.Final ∧ s.contexts () = 2 := by
  have ran : (raceStart.runSchedule raceSchedule).isSome = true := rfl
  have reached := System.reaches_of_runSchedule (Option.some_get ran).symm
  have final : ((raceStart.runSchedule raceSchedule).get ran).Final := by
    intro t
    cases t <;> rfl
  refine ⟨_, reached, final, ?_⟩
  have total := shared_dispatch_is_serial.2 long64 race 0 _ reached final
    [(false, decrement 3), (true, increment 5)] rfl (by
      intro k
      rcases k with _ | _ | k
      · decide
      · decide
      · simp only [List.take_succ_cons, List.take_nil]
        decide)
  rw [total]
  decide

end ThreadsafeDispatchDemo

end GenericSumType
