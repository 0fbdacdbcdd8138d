/-
Module: GenericSumType.Library.Transcript
Layer: Library
Purpose: Runs that report what they did.  When every step shows a report that an abstract state predicts,
  a whole run shows the predicted reports; and when every report tells what its step did to the state, the
  reports alone replay the run.
Imports: GenericSumType.Library.StepMachine
Trusted boundary: none
Main exports: reports, Reported, run_reported
Open obligations: none
-/
import GenericSumType.Library.StepMachine

namespace Transcript

open StepMachine

variable {σ τ ι o r ε : Type*}

/-- The reports on the inputs, each given in the abstract state that the inputs before it leave. -/
def reports (report : τ → ι → r) (next : τ → ι → τ) : τ → List ι → List r
  | _, [] => []
  | t, i :: is => report t i :: reports report next (next t i) is

theorem length_reports (report : τ → ι → r) (next : τ → ι → τ) (t : τ) (is : List ι) :
    (reports report next t is).length = is.length := by
  induction is generalizing t with
  | nil => rfl
  | cons i is ih => rw [reports, List.length_cons, List.length_cons, ih]

/-- A step shows its report, does what the report tells, and keeps to the abstract state. -/
def Reported (step : σ → ι → Except ε (σ × o)) (shown : r → o) (replay : σ → r → σ) (report : τ → ι → r)
    (next : τ → ι → τ) (R : σ → τ → Prop) : Prop :=
  ∀ s t i, R s t → step s i = .ok (replay s (report t i), shown (report t i)) ∧
    R (replay s (report t i)) (next t i)

section Runs

variable {step : σ → ι → Except ε (σ × o)} {shown : r → o} {replay : σ → r → σ} {report : τ → ι → r}
  {next : τ → ι → τ} {R : σ → τ → Prop}

/-- A run shows the predicted reports and is replayed by them. -/
theorem run_reported (reported : Reported step shown replay report next R) {s : σ} {t : τ}
    (related : R s t) (is : List ι) :
    run step s is =
        .ok ((reports report next t is).foldl replay s, (reports report next t is).map shown) ∧
      R ((reports report next t is).foldl replay s) (is.foldl next t) := by
  induction is generalizing s t with
  | nil => exact ⟨rfl, related⟩
  | cons i is ih =>
      obtain ⟨first, states⟩ := reported s t i related
      obtain ⟨rest, final⟩ := ih states
      exact ⟨run_cons_of_ok first rest, final⟩

end Runs

end Transcript
