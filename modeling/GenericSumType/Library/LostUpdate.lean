/-
Module: GenericSumType.Library.LostUpdate
Layer: Library
Purpose: What can be left of the jobs of several threads that read a shared value, compute and write it
  back without excluding each other.  An update may be lost, but a value is never anything else than that
  of some of the jobs executed one after the other, each thread's in their order.
Imports: GenericSumType.Library.MutexSerial
Trusted boundary: none
Main exports: jobsOf_sublist, inTurn, jobsOf_inTurn, Salvaged, Salvaged.initial, Salvaged.mono, Salvaged.write
Open obligations: none
-/
import GenericSumType.Library.MutexSerial

namespace JobCode

variable {ι Job Code V : Type*} [DecidableEq ι] (J : JobCode Job Code V)

theorem jobsOf_append (log log' : List (ι × Job)) (t : ι) :
    jobsOf (log ++ log') t = jobsOf log t ++ jobsOf log' t := by
  simp [jobsOf]

/-- The first entry of a log is the first job of its thread. -/
theorem jobsOf_cons_self (log : List (ι × Job)) (t : ι) (job : Job) :
    jobsOf ((t, job) :: log) t = job :: jobsOf log t := by
  simp [jobsOf]

theorem jobsOf_cons_of_ne (log : List (ι × Job)) {t u : ι} (job : Job) (other : t ≠ u) :
    jobsOf ((t, job) :: log) u = jobsOf log u := by
  simp [jobsOf, other]

/-- A thread does part of its jobs in a part of a log. -/
theorem jobsOf_sublist {log log' : List (ι × Job)} (part : log.Sublist log') (t : ι) :
    (jobsOf log t).Sublist (jobsOf log' t) :=
  (part.filter _).map _

/-- A thread that is alone in a log does all that is logged. -/
theorem jobsOf_own (jobs : List Job) (t : ι) : jobsOf (jobs.map fun job => (t, job)) t = jobs := by
  induction jobs with
  | nil => rfl
  | cons job jobs ih => rw [List.map_cons, jobsOf_cons_self, ih]

/-- The other threads do nothing in it. -/
theorem jobsOf_foreign (jobs : List Job) {t u : ι} (other : t ≠ u) :
    jobsOf (jobs.map fun job => (t, job)) u = [] := by
  induction jobs with
  | nil => rfl
  | cons job jobs ih => rw [List.map_cons, jobsOf_cons_of_ne _ job other, ih]

/-! ### One thread after the other -/

/-- Each of some threads does the same jobs, one thread after the other. -/
def inTurn {κ : Type*} (thread : κ → ι) (ids : List κ) (jobs : List Job) : List (ι × Job) :=
  ids.flatMap fun i => jobs.map fun job => (thread i, job)

section InTurn

variable {κ : Type*} {thread : κ → ι}

theorem jobsOf_inTurn_of_ne {ids : List κ} {t : ι} (away : ∀ i ∈ ids, thread i ≠ t) (jobs : List Job) :
    jobsOf (inTurn thread ids jobs) t = [] := by
  induction ids with
  | nil => rfl
  | cons i ids ih =>
      rw [inTurn, List.flatMap_cons, jobsOf_append, jobsOf_foreign jobs (away i List.mem_cons_self),
        List.nil_append]
      exact ih fun j member => away j (List.mem_cons_of_mem i member)

/-- A thread whose turn comes once does the jobs once. -/
theorem jobsOf_inTurn (injective : Function.Injective thread) {ids : List κ} (distinct : ids.Nodup)
    {i : κ} (member : i ∈ ids) (jobs : List Job) :
    jobsOf (inTurn thread ids jobs) (thread i) = jobs := by
  induction ids with
  | nil => cases member
  | cons j ids ih =>
      obtain ⟨fresh, distinct⟩ := List.nodup_cons.mp distinct
      rw [inTurn, List.flatMap_cons, jobsOf_append]
      by_cases same : j = i
      · subst j
        have others : ∀ j ∈ ids, thread j ≠ thread i := by
          intro j member equal
          rw [injective equal] at member
          exact fresh member
        have rest := jobsOf_inTurn_of_ne others jobs
        rw [inTurn] at rest
        rw [rest, jobsOf_own, List.append_nil]
      · rw [jobsOf_foreign jobs (injective.ne same), List.nil_append]
        exact ih distinct ((List.mem_cons.mp member).resolve_left (Ne.symm same))

end InTurn

/-! ### Salvaged values -/

/-- `v` is what some of the jobs in `done` make of `v₀` when they are executed one after the other, those
    of each thread in their order. -/
def Salvaged (v₀ : V) (done : ι → List Job) (v : V) : Prop :=
  ∃ log : List (ι × Job), J.serial log v₀ = v ∧ ∀ t, (jobsOf log t).Sublist (done t)

variable {J}

/-- Before anything is written there is the initial value. -/
theorem Salvaged.initial (v₀ : V) (done : ι → List Job) : J.Salvaged v₀ done v₀ :=
  ⟨[], rfl, fun _ => List.nil_sublist _⟩

/-- A thread that comes to the end of a job adds it to what is done. -/
def finishJob (done : ι → List Job) (t : ι) (job : Job) : ι → List Job :=
  Function.update done t (done t ++ [job])

/-- What is left stays possible when more is done. -/
theorem Salvaged.mono {v₀ v : V} {done : ι → List Job} (salvaged : J.Salvaged v₀ done v) (t : ι)
    (job : Job) : J.Salvaged v₀ (finishJob done t job) v := by
  obtain ⟨log, value, each⟩ := salvaged
  refine ⟨log, value, ?_⟩
  intro u
  unfold finishJob
  by_cases same : u = t
  · subst u
    rw [Function.update_self]
    exact (each t).trans (List.sublist_append_left _ _)
  · rw [Function.update_of_ne same]
    exact each u

/-- A job that is written back on a value read earlier: what was written since is lost, what had been
    salvaged when it read is not. -/
theorem Salvaged.write {v₀ r : V} {done : ι → List Job} (salvaged : J.Salvaged v₀ done r) (t : ι)
    (job : Job) : J.Salvaged v₀ (finishJob done t job) (J.atomic job r) := by
  obtain ⟨log, value, each⟩ := salvaged
  refine ⟨log ++ [(t, job)], ?_, ?_⟩
  · rw [serial, List.foldl_append, List.foldl_cons, List.foldl_nil]
    exact congrArg (J.atomic job) value
  · intro u
    unfold finishJob
    by_cases same : u = t
    · subst u
      rw [jobsOf_concat_self, Function.update_self]
      exact (each t).append (List.Sublist.refl _)
    · rw [jobsOf_concat_of_ne log job (Ne.symm same), Function.update_of_ne same]
      exact each u

end JobCode
