/-
Module: GenericSumType.Library.ErrorChain
Layer: Library
Purpose: Steps that work on a state and either hand a value on or fail, run one after another.  A run fails
  exactly when some step does, which is then the last one to run.
Imports: Mathlib.Data.List.Basic
Trusted boundary: none
Main exports: Step, next, run, run_append, run_error, run_error_iff
Open obligations: none
-/
import Mathlib.Data.List.Basic

namespace ErrorChain

variable {ε σ α : Type}

/-- A step sees the value of the step before it. -/
abbrev Step (ε σ α : Type) : Type := α → σ → σ × Except ε α

/-- An error is handed on; nothing is called on it. -/
def next (s : σ × Except ε α) (f : Step ε σ α) : σ × Except ε α :=
  match s.2 with
  | .ok a => f a s.1
  | .error _ => s

def run (fs : List (Step ε σ α)) (s : σ × Except ε α) : σ × Except ε α := fs.foldl next s

@[simp] theorem run_nil (s : σ × Except ε α) : run [] s = s := rfl

theorem run_cons (f : Step ε σ α) (fs : List (Step ε σ α)) (s : σ × Except ε α) :
    run (f :: fs) s = run fs (next s f) := rfl

theorem run_append (fs gs : List (Step ε σ α)) (s : σ × Except ε α) :
    run (fs ++ gs) s = run gs (run fs s) := List.foldl_append

theorem run_error (fs : List (Step ε σ α)) (w : σ) (e : ε) : run fs (w, .error e) = (w, .error e) := by
  induction fs with
  | nil => rfl
  | cons f fs ih => exact ih

/-- An error is the one the run began with, or that of the last step to run. -/
theorem run_error_iff (fs : List (Step ε σ α)) {s : σ × Except ε α} {w : σ} {e : ε} :
    run fs s = (w, .error e) ↔
      s = (w, .error e) ∨
        ∃ before f after w₁ a₁, fs = before ++ f :: after ∧ run before s = (w₁, .ok a₁) ∧
          f a₁ w₁ = (w, .error e) := by
  constructor
  · intro failed
    induction fs generalizing s with
    | nil => exact .inl failed
    | cons f fs ih =>
        obtain ⟨w₀, r⟩ := s
        cases r with
        | error e₀ => exact .inl ((run_error (f :: fs) w₀ e₀).symm.trans failed)
        | ok a =>
            rcases ih failed with first | ⟨before, g, after, w₁, a₁, rfl, ran, last⟩
            · exact .inr ⟨[], f, fs, w₀, a, rfl, rfl, first⟩
            · exact .inr ⟨f :: before, g, after, w₁, a₁, rfl, ran, last⟩
  · rintro (rfl | ⟨before, f, after, w₁, a₁, rfl, ran, last⟩)
    · exact run_error fs w e
    · have failed : next (run before s) f = (w, .error e) := by
        rw [ran]
        exact last
      rw [run_append, run_cons, failed, run_error]

end ErrorChain
