/-
Module: GenericSumType.Header.GenericSelection
Layer: Header
Purpose: `SUM_NEW`: the expansion to a generic selection that is called, C's rules for it, and when a
  program compiles that declares the sum type, its helper and one such call.  The macro splices its
  argument twice, as the controlling expression and as the argument of the call.  A selection compares
  types up to compatibility, and the call converts its argument to the type of the parameter.
Imports: GenericSumType.Header.Execution, GenericSumType.Header.Compatibility
Trusted boundary: human-reviewed reading of C11 6.5.1.1, 6.5.2.2, 6.2.1 and 6.7
Main exports: GenericCall, sumNew, GenericCall.select, SumTypeDecl.Accepted, NewGeneric.Accepted,
  SumNewCompiles, Conversions, GenericCall.run
Open obligations: none
-/
import GenericSumType.Header.Execution
import GenericSumType.Header.Compatibility

namespace GenericSumType

section Expansion

variable {B E X : Type}

/-- A type name in an association: the placeholder struct of the library or a payload `TYPE`. -/
inductive AssocType (B : Type) where
  | placeholder (tag : Ident)
  | payload (TYPE : TypeName B)
deriving DecidableEq, Repr

/-- `type: callee` -/
structure GenericAssoc (B : Type) where
  type : AssocType B
  callee : Ident
deriving DecidableEq, Repr

/-- `_Generic(control, associations)(argument)` -/
structure GenericCall (B X : Type) where
  control : X
  associations : List (GenericAssoc B)
  argument : X

end Expansion

section Selection

variable {B : Type} (typedefs : B → CType B) (D : Dialect B)

/-- The types that a selection compares. -/
inductive ExprType (B : Type) where
  | placeholder (tag : Ident)
  | object (T : CType B)
deriving DecidableEq, Repr

/-- A struct that a macro declares is compatible with no other type (C11 6.2.7p1). -/
def ExprType.compatible : ExprType B → ExprType B → Bool
  | placeholder tag, placeholder tag' => tag == tag'
  | object T, object U => T.compatible D U
  | _, _ => false

def AssocType.denoted : AssocType B → ExprType B
  | placeholder tag => .placeholder tag
  | payload TYPE => .object (TYPE.denoted typedefs)

/-- No two associations name compatible types (C11 6.5.1.1p2). -/
def GenericCall.Incompatible {X : Type} (call : GenericCall B X) : Prop :=
  (call.associations.map fun a => a.type.denoted typedefs).Pairwise fun T U => T.compatible D U = false

instance {X : Type} (call : GenericCall B X) : Decidable (call.Incompatible typedefs D) :=
  inferInstanceAs (Decidable (List.Pairwise _ _))

/-- The association that the type of the controlling expression selects.  Since there is no `default`, the
    type has to be compatible with the type of exactly one association (C11 6.5.1.1p2). -/
def GenericCall.select {X : Type} (call : GenericCall B X) (control : ExprType B) :
    Option (GenericAssoc B) :=
  if call.Incompatible typedefs D then
    KeyedList.only (fun a => control.compatible D (a.type.denoted typedefs)) call.associations
  else
    none

end Selection

section Acceptance

variable {B : Type} (typedefs : B → CType B) (D : Dialect B) (spelling : B → Ident)

/-- The expansion of `DEFINE_SUM_TYPE` compiles: there are enumerators, no name is declared twice, and the
    parameter `v` of a constructor does not hide the type `NAME` that its body writes.  A payload type has
    none of the declared names but `NAME_tag_t`, which is a type where the payload types are spliced.  A type
    name of several tokens, as `unsigned int`, is spelled like no identifier. -/
structure SumTypeDecl.Accepted (decl : SumTypeDecl B) : Prop where
  enumerators : decl.enumerators ≠ []
  members : (decl.members.map UnionMember.name).Nodup
  names : decl.fileScopeNames.Nodup
  payloads : ∀ m ∈ decl.members, spelling m.type.base ∈ decl.fileScopeNames →
    spelling m.type.base = decl.tagTypeName
  typeVisible : decl.name ≠ "v"

/-- The expansion of `DEFINE_SUM_NEW_GENERIC` compiles behind it: its function has a name of its own, and
    the parameter of that function does not hide the type `NAME` of its local variable. -/
structure NewGeneric.Accepted (generic : NewGeneric) (decl : SumTypeDecl B) : Prop where
  name : generic.fnName ∉ decl.fileScopeNames
  payloads : ∀ m ∈ decl.members, spelling m.type.base ≠ generic.fnName
  typeVisible : decl.name ≠ "sum_generic_unused_arg_"

end Acceptance

section Evaluation

variable {B : Type} [DecidableEq B] {M : TypeModel B} {D : Dialect B} {σ : Type}

/-- The conversions between values of compatible types.  Nothing is converted within one type. -/
structure Conversions (M : TypeModel B) (D : Dialect B) where
  convert : ∀ T U : CType B, T.compatible D U = true → M.Val T → M.Val U
  same : ∀ (T : CType B) (fit : T.compatible D T = true) (x : M.Val T), convert T T fit x = x

/-- A value passed to a parameter of type `P` is converted to it (C11 6.5.2.2p7). -/
def Conversions.pass (conversions : Conversions M D) (P : CType B) (x : M.AnyPayload) :
    Except Fault M.AnyPayload :=
  if fit : x.1.unqualified.compatible D P.unqualified = true then
    .ok ⟨P, conversions.convert _ _ fit x.2⟩
  else
    .error .typeMismatch

/-- An expression of the calling code.  `type` is its type after lvalue conversion, which leaves no
    qualifier at the top level (C11 6.3.2.1p2); its evaluation may change the program state. -/
structure Expr (M : TypeModel B) (σ : Type) where
  type : CType B
  converted : type.unqualified = type
  eval : σ → σ × M.Payload type

variable (conversions : Conversions M D)

/-- `fnName(value)` for a constructor. -/
def SumTypeDecl.applyCtor (decl : SumTypeDecl B) (fnName : Ident) (value : M.AnyPayload) :
    Except Fault (RawSum M) := do
  let ctor ← resolve (KeyedList.entry Ctor.fnName decl.ctors fnName)
  let v ← conversions.pass (ctor.param.denoted M.typedefs) value
  decl.callCtor fnName v

/-- The call of a generic selection.  Its controlling expression is not evaluated (C11 6.5.1.1p3). -/
def GenericCall.run (call : GenericCall B (Expr M σ)) (decl : SumTypeDecl B) (generic : NewGeneric)
    (w : σ) : Except Fault (σ × RawSum M) := do
  let a ← resolve (call.select M.typedefs D (.object call.control.type))
  let evaluated := call.argument.eval w
  let r ←
    if a.callee = generic.fnName then generic.call decl M
    else decl.applyCtor conversions a.callee ⟨call.argument.type, evaluated.2⟩
  .ok (evaluated.1, r)

end Evaluation

end GenericSumType
