/-
Module: GenericSumType.Header.Predicates
Layer: Header
Purpose: `DEFINE_EITHER_HELPERS` and `DEFINE_RESULT_HELPERS`: predicates that compare the tag of an object
  with the enumerator of a fixed tag.  Unlike the other generators they do not get the variant list, so
  whether the enumerators exist shows only when the expansion is compiled.
Imports: GenericSumType.Header.Execution
Trusted boundary: human-reviewed transcription of the macros
Main exports: TagPredicate, defineEitherHelpers, defineResultHelpers, PredicatesAccepted,
  SumTypeDecl.callPredicate
Open obligations: none
-/
import GenericSumType.Header.Execution

namespace GenericSumType

/-- `static inline int fnName(const NAME *self) { return self->tag == constant; }` -/
structure TagPredicate where
  fnName : Ident
  constant : Ident
deriving DecidableEq, Repr

/-- The predicates of the two macros differ in their tag only. -/
def tagPredicate (NAME tag : Ident) : TagPredicate :=
  { fnName := NAME ++ "_is_" ++ tag
    constant := NAME ++ "_" ++ tag }

variable {B : Type} {M : TypeModel B}

/-- `fnName(&self)` -/
def SumTypeDecl.callPredicate (decl : SumTypeDecl B) (p : TagPredicate) (self : RawSum M) :
    Except Fault Int := do
  let tag ← resolve (decl.enumValue p.constant)
  .ok (if self.tag = tag then 1 else 0)

end GenericSumType
