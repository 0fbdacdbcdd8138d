/-
Module: GenericSumType.Library.StepMachine
Layer: Library
Purpose: Runs of a fallible, observable step function over a list of inputs.  A simulation of single steps
  (same failure, or related states with related outputs) is a simulation of whole runs, and steps that
  always succeed and follow a total function make runs that do.  What every step of a relation preserves
  holds in every reachable state.
Imports: Mathlib.Logic.Relation, Mathlib.Data.List.Forall2
Trusted boundary: none
Main exports: run, run_append, run_error, Agree, run_agree, run_follows,
  invariant_of_reachable
Open obligations: none
-/
import Mathlib.Logic.Relation
import Mathlib.Data.List.Forall2

namespace StepMachine

variable {σ τ ι o o' ε : Type*}

/-- Run a step function over a list of inputs, collecting outputs; the first failure ends the run. -/
def run (step : σ → ι → Except ε (σ × o)) : σ → List ι → Except ε (σ × List o)
  | s, [] => .ok (s, [])
  | s, i :: is =>
      match step s i with
      | .error e => .error e
      | .ok (s', a) =>
          match run step s' is with
          | .error e => .error e
          | .ok (s'', as) => .ok (s'', a :: as)

section Runs

variable {step : σ → ι → Except ε (σ × o)}

@[simp] theorem run_nil (s : σ) : run step s [] = .ok (s, []) := rfl

/-- A successful run of a nonempty input list splits into its first step and the rest. -/
theorem run_cons_ok {s s'' : σ} {i : ι} {is : List ι} {as : List o}
    (done : run step s (i :: is) = .ok (s'', as)) :
    ∃ s' a rest, step s i = .ok (s', a) ∧ run step s' is = .ok (s'', rest) ∧ as = a :: rest := by
  unfold run at done
  cases first : step s i with
  | error e =>
      simp [first] at done
  | ok p =>
      rcases p with ⟨s', a⟩
      cases rest : run step s' is with
      | error e =>
          simp [first, rest] at done
      | ok q =>
          rcases q with ⟨t, bs⟩
          simp only [first, rest, Except.ok.injEq, Prod.mk.injEq] at done
          rcases done with ⟨rfl, rfl⟩
          exact ⟨s', a, bs, rfl, rest, rfl⟩

theorem run_cons_of_ok {s s' s'' : σ} {i : ι} {is : List ι} {a : o} {as : List o}
    (first : step s i = .ok (s', a)) (rest : run step s' is = .ok (s'', as)) :
    run step s (i :: is) = .ok (s'', a :: as) := by
  simp [run, first, rest]

/-- Runs compose along the concatenation of their inputs. -/
theorem run_append {s s' s'' : σ} {is js : List ι} {as bs : List o}
    (front : run step s is = .ok (s', as)) (back : run step s' js = .ok (s'', bs)) :
    run step s (is ++ js) = .ok (s'', as ++ bs) := by
  induction is generalizing s as with
  | nil =>
      simp only [run_nil, Except.ok.injEq, Prod.mk.injEq] at front
      rcases front with ⟨rfl, rfl⟩
      exact back
  | cons i is ih =>
      obtain ⟨t, a, rest, first, tail, rfl⟩ := run_cons_ok front
      exact run_cons_of_ok first (ih tail)

/-- A run fails only where one of its steps fails. -/
theorem run_error {s : σ} {is : List ι} {e : ε} (failed : run step s is = .error e) :
    ∃ s' i, step s' i = .error e := by
  induction is generalizing s with
  | nil =>
      cases failed
  | cons i is ih =>
      simp only [run] at failed
      cases first : step s i with
      | error e' =>
          rw [first] at failed
          cases failed
          exact ⟨s, i, first⟩
      | ok p =>
          rcases p with ⟨s', a⟩
          cases rest : run step s' is with
          | error e' =>
              simp only [first, rest] at failed
              cases failed
              exact ih rest
          | ok q =>
              simp [first, rest] at failed

end Runs

/-- Two outcomes agree when both fail in the same way, or both succeed in related states with related
    outputs. -/
inductive Agree (R : σ → τ → Prop) (O : o → o' → Prop) :
    Except ε (σ × o) → Except ε (τ × o') → Prop where
  | ok {s : σ} {t : τ} {a : o} {b : o'} (states : R s t) (outputs : O a b) :
      Agree R O (.ok (s, a)) (.ok (t, b))
  | error (e : ε) : Agree R O (.error e) (.error e)

/-- A simulation of single steps is a simulation of runs. -/
theorem run_agree {step : σ → ι → Except ε (σ × o)} {other : τ → ι → Except ε (τ × o')}
    {R : σ → τ → Prop} {O : o → o' → Prop}
    (simulates : ∀ s t i, R s t → Agree R O (step s i) (other t i))
    {s : σ} {t : τ} (related : R s t) (is : List ι) :
    Agree R (List.Forall₂ O) (run step s is) (run other t is) := by
  induction is generalizing s t with
  | nil =>
      exact .ok related .nil
  | cons i is ih =>
      have head := simulates s t i related
      simp only [run]
      generalize step s i = left at head ⊢
      generalize other t i = right at head ⊢
      cases head with
      | error e => exact .error e
      | @ok s' t' a b states outputs =>
          have tail := ih states
          dsimp only
          generalize run step s' is = leftTail at tail ⊢
          generalize run other t' is = rightTail at tail ⊢
          cases tail with
          | error e => exact .error e
          | ok states' outputs' => exact .ok states' (.cons outputs outputs')

/-- Steps that succeed on related states and follow `next` make a run that succeeds and follows it. -/
theorem run_follows {step : σ → ι → Except ε (σ × o)} {next : τ → ι → τ} {R : σ → τ → Prop}
    (follows : ∀ s t i, R s t → ∃ s' a, step s i = .ok (s', a) ∧ R s' (next t i))
    {s : σ} {t : τ} (related : R s t) (is : List ι) :
    ∃ s' as, run step s is = .ok (s', as) ∧ R s' (is.foldl next t) := by
  induction is generalizing s t with
  | nil => exact ⟨s, [], rfl, related⟩
  | cons i is ih =>
      obtain ⟨s', a, first, states⟩ := follows s t i related
      obtain ⟨s'', as, rest, final⟩ := ih states
      exact ⟨s'', a :: as, run_cons_of_ok first rest, final⟩

/-- What every step of a relation preserves holds in every reachable state. -/
theorem invariant_of_reachable {Step : σ → σ → Prop} {Inv : σ → Prop}
    (preserved : ∀ s s', Inv s → Step s s' → Inv s') {s s' : σ} (initial : Inv s)
    (reached : Relation.ReflTransGen Step s s') : Inv s' := by
  induction reached with
  | refl => exact initial
  | tail _ last ih => exact preserved _ _ ih last

end StepMachine
