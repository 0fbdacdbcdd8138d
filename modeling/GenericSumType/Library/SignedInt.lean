/-
Module: GenericSumType.Library.SignedInt
Layer: Library
Purpose: Signed integer types with a range and without wrap-around, at least as wide as C asks of `int`: an
  operation whose exact result is outside of the range has no result.  Adding up numbers in such a variable
  succeeds exactly when every partial sum is in range, and then leaves the exact sum.
Imports: Mathlib.Algebra.BigOperators.Group.List.Basic, Mathlib.Algebra.Order.Ring.Int
Trusted boundary: human-reviewed semantics of signed arithmetic in C (C11 5.2.4.2.1 and 6.5p5)
Main exports: IntType, IntType.Value, Overflow, IntType.result, IntType.PartialSumsInRange,
  partialSums_cons_iff, partialSums_of_steps
Open obligations: none
-/
import Mathlib.Algebra.BigOperators.Group.List.Basic
import Mathlib.Algebra.Order.Ring.Int

namespace SignedInt

/-- The range of a signed integer type that is as wide as `int` or wider. -/
structure IntType where
  least : Int
  greatest : Int
  least_le : least ≤ -32767
  le_greatest : 32767 ≤ greatest

namespace IntType

variable (T : IntType)

theorem least_nonpos : T.least ≤ 0 := T.least_le.trans (by decide)

theorem greatest_nonneg : 0 ≤ T.greatest := le_trans (by decide) T.le_greatest

def InRange (x : Int) : Prop := T.least ≤ x ∧ x ≤ T.greatest

instance (x : Int) : Decidable (T.InRange x) := inferInstanceAs (Decidable (_ ∧ _))

/-- The values of the type. -/
abbrev Value : Type := { x : Int // T.InRange x }

def zero : T.Value := ⟨0, T.least_nonpos, T.greatest_nonneg⟩

/-- The value of a constant that every such type has. -/
def constant (x : Int) (low : -32767 ≤ x := by decide) (high : x ≤ 32767 := by decide) : T.Value :=
  ⟨x, T.least_le.trans low, high.trans T.le_greatest⟩

end IntType

/-- Signed overflow is undefined. -/
inductive Overflow where
  | overflow
deriving DecidableEq, Repr

/-- The value of an operation whose exact result is `x`. -/
def IntType.result (T : IntType) (x : Int) : Except Overflow T.Value :=
  if inRange : T.InRange x then .ok ⟨x, inRange⟩ else .error .overflow

section Results

variable {T : IntType} {x : Int}

theorem result_of_inRange (inRange : T.InRange x) : T.result x = .ok ⟨x, inRange⟩ := dif_pos inRange

theorem result_of_not_inRange (outside : ¬T.InRange x) : T.result x = .error .overflow := dif_neg outside

end Results

/-- Every sum that adding the numbers one by one to `x` goes through is in range. -/
def IntType.PartialSumsInRange (T : IntType) (x : Int) (numbers : List Int) : Prop :=
  ∀ front, front <+: numbers → T.InRange (x + front.sum)

section Sums

variable {T : IntType} {x d : Int} {numbers : List Int}

theorem partialSums_nil_iff : T.PartialSumsInRange x [] ↔ T.InRange x := by
  constructor
  · intro inRange
    simpa using inRange [] (List.prefix_refl [])
  · intro inRange front isFront
    rw [List.prefix_nil.mp isFront, List.sum_nil, Int.add_zero]
    exact inRange

/-- The first number may be added before the others. -/
theorem partialSums_cons_iff :
    T.PartialSumsInRange x (d :: numbers) ↔ T.InRange x ∧ T.PartialSumsInRange (x + d) numbers := by
  constructor
  · intro inRange
    refine ⟨by simpa using inRange [] List.nil_prefix, ?_⟩
    intro front isFront
    have longer := inRange (d :: front) (List.cons_prefix_cons.mpr ⟨rfl, isFront⟩)
    rwa [List.sum_cons, ← Int.add_assoc] at longer
  · rintro ⟨first, rest⟩ front isFront
    cases front with
    | nil => simpa using first
    | cons d' front =>
        obtain ⟨rfl, inner⟩ := List.cons_prefix_cons.mp isFront
        rw [List.sum_cons, ← Int.add_assoc]
        exact rest front inner

theorem partialSums_start (inRange : T.PartialSumsInRange x numbers) : T.InRange x := by
  simpa using inRange [] List.nil_prefix

/-- Numbers of another type cannot leave the range in too few steps to cross it. -/
theorem partialSums_of_steps {S : IntType} (steps : ∀ d ∈ numbers, S.InRange d)
    (below : T.least ≤ x + numbers.length * S.least)
    (above : x + numbers.length * S.greatest ≤ T.greatest) : T.PartialSumsInRange x numbers := by
  induction numbers generalizing x with
  | nil =>
      apply partialSums_nil_iff.mpr
      simp only [List.length_nil, Int.natCast_zero, Int.zero_mul, Int.add_zero] at below above
      exact ⟨below, above⟩
  | cons d numbers ih =>
      have down : (numbers.length : Int) * S.least ≤ 0 :=
        mul_nonpos_of_nonneg_of_nonpos (Int.natCast_nonneg _) S.least_nonpos
      have up : 0 ≤ (numbers.length : Int) * S.greatest :=
        mul_nonneg (Int.natCast_nonneg _) S.greatest_nonneg
      have step := steps d List.mem_cons_self
      rw [List.length_cons, Int.natCast_succ, Int.add_mul, Int.one_mul] at below above
      have least := S.least_nonpos
      have greatest := S.greatest_nonneg
      rw [IntType.InRange] at step
      apply partialSums_cons_iff.mpr
      constructor
      · constructor <;> omega
      · apply ih (fun d member => steps d (List.mem_cons_of_mem _ member))
        · omega
        · omega

end Sums

end SignedInt
