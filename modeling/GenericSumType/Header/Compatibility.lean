/-
Module: GenericSumType.Header.Compatibility
Layer: Header
Purpose: Compatible types.  C compares types up to compatibility where the header speaks of equal types:
  an enumeration is compatible with the integer type that represents it, and pointers to arrays are
  compatible when one leaves the length open.  Which type names are compatible is up to the implementation,
  so it is a parameter; it is reflexive and symmetric, but not transitive.
Imports: GenericSumType.Header.CType, Mathlib.Data.List.Forall2
Trusted boundary: human-reviewed reading of C11 6.2.7, 6.7.2.2p4, 6.7.3p10, 6.7.6.1p2 and 6.7.6.3
Main exports: Dialect, unsignedEnums, CType.compatible, Dialect.Alone, compatible_iff_eq_of_base_eq,
  compatible_exact_iff, FnType, FnType.Compatible
Open obligations: none
-/
import GenericSumType.Header.CType
import Mathlib.Data.List.Forall2

namespace GenericSumType

/-- What the implementation and the version of the standard say about types. -/
structure Dialect (B : Type) where
  /-- The named types that are compatible. -/
  compatible : B → B → Bool
  compatible_refl : ∀ b, compatible b b = true
  compatible_symm : ∀ a b, compatible a b = true → compatible b a = true
  /-- A function type keeps the qualifiers of its result.  C17 6.7.6.3p5 drops them; C99 does not, and not
      all compilers follow the change. -/
  resultQualified : Bool

/-- No other named type is compatible with `b`. -/
def Dialect.Alone {B : Type} (D : Dialect B) (b : B) : Prop :=
  ∀ b', D.compatible b b' = true → b' = b

/-- An implementation that represents `enum color` by `unsigned int`. -/
def unsignedEnums : Dialect Ident where
  compatible a b :=
    a == b || (a == "enum color" && b == "unsigned int") || (a == "unsigned int" && b == "enum color")
  compatible_refl := by simp
  compatible_symm := by
    intro a b
    simp only [Bool.or_eq_true, Bool.and_eq_true, beq_iff_eq]
    rintro ((rfl | ⟨rfl, rfl⟩) | ⟨rfl, rfl⟩) <;> simp
  resultQualified := false

theorem unsignedEnums_alone {b : Ident} (noEnum : b ≠ "enum color") (noInt : b ≠ "unsigned int") :
    unsignedEnums.Alone b := by
  intro b' fit
  simp only [unsignedEnums, Bool.or_eq_true, Bool.and_eq_true, beq_iff_eq] at fit
  rcases fit with (same | ⟨enum, _⟩) | ⟨int, _⟩
  · exact same.symm
  · exact absurd enum noEnum
  · exact absurd int noInt

namespace CType

variable {B : Type} (D : Dialect B)

/-- Compatible types are qualified alike at every level. -/
def compatible : CType B → CType B → Bool
  | named a c, named b d => D.compatible a b && c == d
  | pointer T c, pointer U d => T.compatible U && c == d
  | _, _ => false

/-- The named type under all pointers. -/
def base : CType B → B
  | named b _ => b
  | pointer T _ => T.base

/-- The same pointers to another named type. -/
def withBase (b : B) : CType B → CType B
  | named _ c => named b c
  | pointer T c => pointer (T.withBase b) c

variable {D}

@[simp] theorem compatible_pointer {T U : CType B} {c d : Bool} :
    (pointer T c).compatible D (pointer U d) = (T.compatible D U && c == d) := rfl

theorem compatible_refl (T : CType B) : T.compatible D T = true := by
  induction T with
  | named b c => simp [compatible, D.compatible_refl]
  | pointer T c ih => simp [ih]

theorem compatible_symm {T U : CType B} (fit : T.compatible D U = true) : U.compatible D T = true := by
  induction T generalizing U with
  | named a c =>
      cases U with
      | named b d =>
          simp only [compatible, Bool.and_eq_true, beq_iff_eq] at fit ⊢
          exact ⟨D.compatible_symm a b fit.1, fit.2.symm⟩
      | pointer U d => cases fit
  | pointer T c ih =>
      cases U with
      | named b d => cases fit
      | pointer U d =>
          simp only [compatible_pointer, Bool.and_eq_true, beq_iff_eq] at fit ⊢
          exact ⟨ih fit.1, fit.2.symm⟩

/-- Qualifying both at the top level hides how they were qualified there. -/
theorem compatible_addConst {T U : CType B} :
    T.addConst.compatible D U.addConst = T.unqualified.compatible D U.unqualified := by
  cases T <;> cases U <;> rfl

theorem compatible_unqualified {T U : CType B} (fit : T.compatible D U = true) :
    T.unqualified.compatible D U.unqualified = true := by
  cases T <;> cases U <;> simp_all [compatible, unqualified]

theorem base_addConst (T : CType B) : T.addConst.base = T.base := by
  cases T <;> rfl

/-- Stars and qualifiers leave the named type alone. -/
theorem base_extendAll (T : CType B) (tokens : List DeclToken) : (T.extendAll tokens).base = T.base := by
  induction tokens generalizing T with
  | nil => rfl
  | cons token tokens ih =>
      rw [extendAll_cons, ih]
      cases token with
      | const => exact base_addConst T
      | star => rfl

theorem base_withBase (b : B) (T : CType B) : (T.withBase b).base = b := by
  induction T with
  | named b' c => rfl
  | pointer T c ih => exact ih

theorem compatible_withBase {b : B} {T : CType B} (fit : D.compatible T.base b = true) :
    T.compatible D (T.withBase b) = true := by
  induction T with
  | named b' c => simpa [withBase, compatible, base] using fit
  | pointer T c ih => simpa [withBase] using ih fit

/-- Types with the same named type are compatible only when they are the same. -/
theorem compatible_iff_eq_of_base_eq {T U : CType B} (same : T.base = U.base) :
    T.compatible D U = true ↔ T = U := by
  constructor
  · intro fit
    induction T generalizing U with
    | named a c =>
        cases U with
        | named b d =>
            simp only [compatible, Bool.and_eq_true, beq_iff_eq] at fit
            rw [fit.2, show a = b from same]
        | pointer U d => cases fit
    | pointer T c ih =>
        cases U with
        | named b d => cases fit
        | pointer U d =>
            simp only [compatible_pointer, Bool.and_eq_true, beq_iff_eq] at fit
            have inner : T.base = U.base := same
            rw [ih inner fit.1, fit.2]
  · rintro rfl
    exact compatible_refl T

theorem base_of_compatible {T U : CType B} (fit : T.compatible D U = true) :
    D.compatible T.base U.base = true := by
  induction T generalizing U with
  | named a c =>
      cases U with
      | named b d =>
          simp only [compatible, Bool.and_eq_true] at fit
          exact fit.1
      | pointer U d => cases fit
  | pointer T c ih =>
      cases U with
      | named b d => cases fit
      | pointer U d =>
          simp only [compatible_pointer, Bool.and_eq_true] at fit
          have inner : D.compatible T.base U.base = true := ih fit.1
          exact inner

/-- A type has no other compatible type exactly when its named type has none. -/
theorem compatible_exact_iff {T : CType B} :
    (∀ U, U.compatible D T = true ↔ U = T) ↔ D.Alone T.base := by
  constructor
  · intro exact b fit
    have same := (exact (T.withBase b)).mp (compatible_symm (compatible_withBase fit))
    rw [← base_withBase b T, same]
  · intro alone U
    constructor
    · intro fit
      have bases := alone _ (D.compatible_symm _ _ (base_of_compatible fit))
      exact (compatible_iff_eq_of_base_eq bases).mp fit
    · rintro rfl
      exact compatible_refl U

end CType

/-- A function type, as far as compatibility looks at it: its parameters are taken unqualified
    (C11 6.7.6.3p15). -/
structure FnType (B : Type) where
  result : CType B
  params : List (CType B)
deriving DecidableEq, Repr

/-- The result that a function type has when `T` is declared. -/
def Dialect.resultType {B : Type} (D : Dialect B) (T : CType B) : CType B :=
  if D.resultQualified then T else T.unqualified

/-- Compatible function types have compatible results, and as many parameters of compatible types. -/
def FnType.Compatible {B : Type} (D : Dialect B) (F G : FnType B) : Prop :=
  F.result.compatible D G.result = true ∧
    List.Forall₂ (fun T U => T.compatible D U = true) F.params G.params

instance {B : Type} (D : Dialect B) (F G : FnType B) : Decidable (F.Compatible D G) :=
  inferInstanceAs (Decidable (_ ∧ _))

end GenericSumType
