/-
Module: GenericSumType.Library.MutexSerial
Layer: Library
Purpose: A mutex makes critical sections atomic.  Threads with lists of jobs share one value; a job is
  executed in small steps by the thread that holds the mutex.  Whatever the interleaving, the value is
  the one of the jobs executed atomically in the order in which the mutex was taken, up to the effect of
  what the present holder has still to do.
Imports: GenericSumType.Library.StepMachine, Mathlib.Logic.Function.Basic,
  Mathlib.Algebra.BigOperators.Group.Finset.Basic, Mathlib.Algebra.BigOperators.Group.List.Basic,
  Mathlib.Data.Set.List
Trusted boundary: none
Main exports: JobCode, MutexState, MutexState.Step, Serialized, serialized_of_reached,
  log_of_jobs, sum_jobsOf
Open obligations: none
-/
import GenericSumType.Library.StepMachine
import Mathlib.Logic.Function.Basic
import Mathlib.Algebra.BigOperators.Group.Finset.Basic
import Mathlib.Algebra.BigOperators.Group.List.Basic
import Mathlib.Data.Set.List

/-- What a job does to the shared value: code that runs in small steps, and the effect of all that is
    left of it at once. -/
structure JobCode (Job Code V : Type*) where
  start : Job → Code
  step : Code → V → Option (Code × V)
  effect : Code → V → V
  effect_step : ∀ {code code' v v'}, step code v = some (code', v') → effect code' v' = effect code v
  effect_end : ∀ {code v}, step code v = none → effect code v = v

namespace JobCode

variable {ι Job Code V : Type*} [DecidableEq ι] (J : JobCode Job Code V)

/-- A job executed at once. -/
def atomic (job : Job) (v : V) : V := J.effect (J.start job) v

/-- The shared value, the thread inside the mutex with the rest of its job, the jobs that have not
    started, and the jobs in the order in which they took the mutex. -/
structure MutexState (ι Job Code V : Type*) where
  value : V
  holder : Option (ι × Job × Code)
  pending : ι → List Job
  log : List (ι × Job)

def initial (v : V) (jobs : ι → List Job) : MutexState ι Job Code V :=
  { value := v
    holder := none
    pending := jobs
    log := [] }

inductive Step (s : MutexState ι Job Code V) : MutexState ι Job Code V → Prop where
  | take {t : ι} {job : Job} {jobs : List Job} (free : s.holder = none)
      (next : s.pending t = job :: jobs) :
      Step s
        { s with
          holder := some (t, job, J.start job)
          pending := Function.update s.pending t jobs
          log := s.log ++ [(t, job)] }
  | work {t : ι} {job : Job} {code code' : Code} {v : V} (inside : s.holder = some (t, job, code))
      (next : J.step code s.value = some (code', v)) :
      Step s { s with value := v, holder := some (t, job, code') }
  | release {t : ι} {job : Job} {code : Code} (inside : s.holder = some (t, job, code))
      (ended : J.step code s.value = none) : Step s { s with holder := none }

def Reaches : MutexState ι Job Code V → MutexState ι Job Code V → Prop :=
  Relation.ReflTransGen J.Step

/-- The value once the present holder is through. -/
def settled (s : MutexState ι Job Code V) : V :=
  match s.holder with
  | none => s.value
  | some (_, _, code) => J.effect code s.value

/-- The jobs of a log, executed one after the other. -/
def serial (log : List (ι × Job)) (v : V) : V := log.foldl (fun v e => J.atomic e.2 v) v

/-- The jobs of one thread, in log order. -/
def jobsOf (log : List (ι × Job)) (t : ι) : List Job :=
  (log.filter fun e => e.1 = t).map Prod.snd

@[simp] theorem jobsOf_nil (t : ι) : jobsOf ([] : List (ι × Job)) t = [] := rfl

theorem jobsOf_concat_self (log : List (ι × Job)) (t : ι) (job : Job) :
    jobsOf (log ++ [(t, job)]) t = jobsOf log t ++ [job] := by
  simp [jobsOf]

theorem jobsOf_concat_of_ne (log : List (ι × Job)) {t u : ι} (job : Job) (other : t ≠ u) :
    jobsOf (log ++ [(t, job)]) u = jobsOf log u := by
  simp [jobsOf, other]

theorem jobsOf_map {Job' : Type*} (f : Job → Job') (log : List (ι × Job)) (t : ι) :
    jobsOf (log.map fun e => (e.1, f e.2)) t = (jobsOf log t).map f := by
  simp [jobsOf, List.filter_map, Function.comp_def]

/-- A log whose jobs all come from descriptions of jobs is a log of descriptions. -/
theorem log_of_jobs {Job' : Type*} {f : Job → Job'} (injective : Function.Injective f)
    {log : List (ι × Job')} {jobs : ι → List Job}
    (each : ∀ t, jobsOf log t = (jobs t).map f) :
    ∃ issued : List (ι × Job), log = issued.map (fun e => (e.1, f e.2)) ∧
      ∀ t, jobsOf issued t = jobs t := by
  have described : log ∈ Set.range (List.map fun e : ι × Job => (e.1, f e.2)) := by
    rw [Set.range_list_map]
    rintro ⟨t, job⟩ logged
    have mine : job ∈ jobsOf log t :=
      List.mem_map.mpr ⟨(t, job), List.mem_filter.mpr ⟨logged, by simp⟩, rfl⟩
    rw [each t] at mine
    rcases List.mem_map.mp mine with ⟨description, _, rfl⟩
    exact ⟨(t, description), rfl⟩
  obtain ⟨issued, rfl⟩ := described
  refine ⟨issued, rfl, ?_⟩
  intro t
  have same := each t
  rw [jobsOf_map] at same
  exact List.map_injective_iff.mpr injective same

/-- The value is that of the serial execution of the log, and the log takes the jobs of each thread in
    their order. -/
structure Serialized (v : V) (jobs : ι → List Job) (s : MutexState ι Job Code V) : Prop where
  value : J.settled s = J.serial s.log v
  order : ∀ t, jobsOf s.log t ++ s.pending t = jobs t

theorem Serialized.step {v : V} {jobs : ι → List Job} {s s' : MutexState ι Job Code V}
    (serialized : J.Serialized v jobs s) (step : J.Step s s') : J.Serialized v jobs s' := by
  rcases serialized with ⟨value, order⟩
  cases step with
  | @take t job rest free next =>
      constructor
      · have before : s.value = J.serial s.log v := by
          rw [← value, settled, free]
        simp only [settled, serial, List.foldl_append, List.foldl_cons, List.foldl_nil, atomic]
        rw [before]
        rfl
      · intro u
        dsimp only
        by_cases same : t = u
        · subst u
          have mine := order t
          rw [next] at mine
          rw [jobsOf_concat_self, Function.update_self, List.append_assoc]
          exact mine
        · rw [jobsOf_concat_of_ne _ _ same, Function.update_of_ne (Ne.symm same)]
          exact order u
  | work inside next =>
      refine ⟨?_, order⟩
      rw [settled, inside] at value
      exact (J.effect_step next).trans value
  | release inside ended =>
      refine ⟨?_, order⟩
      rw [settled, inside] at value
      exact (J.effect_end ended).symm.trans value

theorem serialized_of_reached {v : V} {jobs : ι → List Job} {s : MutexState ι Job Code V}
    (reached : J.Reaches (initial v jobs) s) : J.Serialized v jobs s := by
  refine StepMachine.invariant_of_reachable ?_ ?_ reached
  · intro s s' serialized step
    exact serialized.step J step
  · exact ⟨rfl, fun t => rfl⟩

/-! ### Totals over a log -/

variable [Fintype ι] {A : Type*} [AddCommMonoid A]

/-- The total of a log is the total over the threads. -/
theorem sum_jobsOf (weight : Job → A) (log : List (ι × Job)) :
    (log.map fun e => weight e.2).sum = ∑ t, ((jobsOf log t).map weight).sum := by
  induction log using List.reverseRecOn with
  | nil => simp
  | append_singleton log e ih =>
      rcases e with ⟨t, job⟩
      have others : ∀ u ∈ Finset.univ.erase t,
          ((jobsOf (log ++ [(t, job)]) u).map weight).sum = ((jobsOf log u).map weight).sum := by
        intro u erased
        rw [jobsOf_concat_of_ne log job (Finset.ne_of_mem_erase erased).symm]
      rw [← Finset.add_sum_erase _ _ (Finset.mem_univ t), Finset.sum_congr rfl others,
        jobsOf_concat_self]
      rw [← Finset.add_sum_erase _ _ (Finset.mem_univ t)] at ih
      simp only [List.map_append, List.map_cons, List.map_nil, List.sum_append, List.sum_cons,
        List.sum_nil, add_zero, ih]
      exact add_right_comm _ _ _

end JobCode
