/-
Module: GenericSumType.Library.LastWrite
Layer: Library
Purpose: A register that some inputs of a sequence write to keeps the last value written, or its initial
  value when none is.  It follows the inputs one at a time, keeps what holds of its initial value and of
  every value written, and depends only on the subsequence of the inputs that can write to it.  Inputs that
  write related values leave related values.
Imports: Mathlib.Data.List.Basic
Trusted boundary: none
Main exports: register, register_cons, register_concat, register_invariant, register_filter,
  register_rel
Open obligations: none
-/
import Mathlib.Data.List.Basic

namespace LastWrite

variable {ι V : Type*}

/-- The register after the inputs, where `writes i` is what input `i` writes to it, if anything. -/
def register (writes : ι → Option V) (x : V) (is : List ι) : V :=
  (is.filterMap writes).getLast?.getD x

variable (writes : ι → Option V)

@[simp] theorem register_nil (x : V) : register writes x [] = x := rfl

theorem register_cons (x : V) (i : ι) (is : List ι) :
    register writes x (i :: is) = register writes ((writes i).getD x) is := by
  cases written : writes i with
  | none =>
      rw [register, List.filterMap_cons_none written]
      rfl
  | some v =>
      rw [register, List.filterMap_cons_some written, List.getLast?_cons]
      rfl

theorem register_concat (x : V) (is : List ι) (i : ι) :
    register writes x (is ++ [i]) = (writes i).getD (register writes x is) := by
  rw [register, List.filterMap_append]
  cases written : writes i with
  | none =>
      rw [List.filterMap_cons_none written, List.filterMap_nil, List.append_nil]
      rfl
  | some v =>
      rw [List.filterMap_cons_some written, List.filterMap_nil, List.getLast?_concat]
      rfl

variable {writes}

theorem register_invariant {P : V → Prop} {x : V} {is : List ι} (initial : P x)
    (written : ∀ i ∈ is, ∀ v, writes i = some v → P v) : P (register writes x is) := by
  rw [register]
  cases last : (is.filterMap writes).getLast? with
  | none => exact initial
  | some v =>
      obtain ⟨i, member, wrote⟩ := List.mem_filterMap.mp (List.mem_of_getLast? last)
      exact written i member v wrote

/-- Inputs that cannot write to the register do not matter. -/
theorem register_filter {p : ι → Bool} (relevant : ∀ i v, writes i = some v → p i) (x : V)
    (is : List ι) : register writes x (is.filter p) = register writes x is := by
  rw [register, register, List.filterMap_filter]
  congr 3
  funext i
  by_cases kept : p i
  · exact if_pos kept
  · rw [if_neg kept]
    cases written : writes i with
    | none => rfl
    | some v => exact absurd (relevant i v written) kept

/-- Two sequences with the same relevant inputs leave the same value. -/
theorem register_eq_of_filter {p : ι → Bool} (relevant : ∀ i v, writes i = some v → p i) (x : V)
    {is js : List ι} (same : js.filter p = is.filter p) :
    register writes x js = register writes x is := by
  rw [← register_filter relevant x js, same, register_filter relevant x is]

/-- Inputs that write related values, one by one, leave related values. -/
theorem register_rel {κ W : Type*} {other : κ → Option W} {Q : V → W → Prop} {is : List ι} {js : List κ}
    (related : List.Forall₂ (fun i j => Option.Rel Q (writes i) (other j)) is js) {x : V} {y : W}
    (initial : Q x y) : Q (register writes x is) (register other y js) := by
  induction related generalizing x y with
  | nil => exact initial
  | @cons i j is js head _ ih =>
      rw [register_cons, register_cons]
      apply ih
      generalize writes i = written at head ⊢
      generalize other j = written' at head ⊢
      cases head with
      | none => exact initial
      | some values => exact values

end LastWrite
