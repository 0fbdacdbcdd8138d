/-
Module: GenericSumType.Header.Typing
Layer: Header
Purpose: C's static rules for the generated code.  `WellTyped` says that every expression of an
  expansion has the type that its place asks for: the address `&self->as.TAG` against the spliced
  parameter text of the handler or the result text of the getter, and a returned payload against the
  member or the result it initialises.  `accepts` is the prototype check of a call of a generated
  function with a list of handlers, as `-Werror` enforces it: it asks for compatible types.
Imports: GenericSumType.Header.Program, GenericSumType.Header.Compatibility
Trusted boundary: human-reviewed reading of C11 6.5.2.3, 6.5.16.1 and 6.7.6.3
Main exports: SumInstance.WellTyped, TypeName.constPlacementAgrees, HandlerParam.fnType,
  HandlerParam.takes, SwitchFn.accepts
Open obligations: none
-/
import GenericSumType.Header.Program
import GenericSumType.Header.Compatibility

namespace GenericSumType

variable {B : Type} (typedefs : B → CType B)

/-- The type of `&self->as.m` for a member of type `T`: the members of a `const` object are `const`. -/
def addressType (selfConst : Bool) (T : CType B) : CType B :=
  .pointer (if selfConst then T.addConst else T) false

/-- `.as.member = v` initialises the member with the value of `v`. -/
def Ctor.WellTyped (decl : SumTypeDecl B) (ctor : Ctor B) : Prop :=
  ∃ T, decl.memberType typedefs ctor.member = some T ∧
    (ctor.param.denoted typedefs).unqualified = T.unqualified

/-- Both branches of a getter's `?:` have its result type; `NULL` converts to any pointer type. -/
def Getter.WellTyped (decl : SumTypeDecl B) (getter : Getter B) : Prop :=
  ∃ T, decl.memberType typedefs getter.member = some T ∧
    denote typedefs getter.result = some (addressType getter.selfConst T)

/-- The types of the argument expressions of a case's handler call; the text of `ctx` has to be a type. -/
def SwitchFn.argTypes (f : SwitchFn B) (T : CType B) : CaseBody → Option (List (CType B))
  | .callBreak _ _ =>
      (f.ctx.bind (denote typedefs)).map fun ctx => [addressType f.selfConst T, ctx]
  | _ => some [addressType f.selfConst T]

/-- A handler result of type `R` has the type of its place: the declared result of the function, or the
    member of the compound literal. -/
def SwitchFn.ResultTyped (decl : SumTypeDecl B) (f : SwitchFn B) (R : CType B) : CaseBody → Prop
  | .returnCall _ _ =>
      match f.result with
      | .text t => denote typedefs t = some R
      | .sum _ => False
  | .returnSum _ target _ _ =>
      f.result = .sum decl.name ∧
        ∃ T, decl.memberType typedefs target = some T ∧ R.unqualified = T.unqualified
  | _ => True

/-- The texts of the handler parameter are types, and the case calls it with arguments of exactly these
    types. -/
def SwitchFn.CaseWellTyped (decl : SumTypeDecl B) (f : SwitchFn B) (c : SwitchCase) : Prop :=
  ∃ p T args R, KeyedList.entry HandlerParam.name f.params c.body.callee = some p ∧
    decl.memberType typedefs c.body.member = some T ∧
    f.argTypes typedefs T c.body = some args ∧ p.args.mapM (denote typedefs) = some args ∧
    denote typedefs p.result = some R ∧ f.ResultTyped typedefs decl R c.body

/-- `return *v;` returns a value of the declared result type. -/
def IdentityCopy.WellTyped (copy : IdentityCopy B) : Prop :=
  ∃ P R, denote typedefs copy.param = some (.pointer P false) ∧
    denote typedefs copy.result = some R ∧ P.unqualified = R.unqualified

/-- `(void)v;` asks nothing of `v` but a type. -/
def NoopDestroy.WellTyped (noop : NoopDestroy B) : Prop :=
  ∃ P, denote typedefs noop.param = some (.pointer P false)

/-- The texts given for `RET_TYPE` and `CTX_TYPE` are types, and so is `void`. -/
structure SumInstance.TextsAreTypes (U : SumInstance B) : Prop where
  ret : (denote typedefs U.RET_TYPE).isSome
  void : (denote typedefs U.VOID).isSome
  ctx : (denote typedefs (U.CTX_TYPE ++ [.star])).isSome

/-- Every expansion over the variant list is well typed.  The names in the texts are taken to be type names
    wherever they are spliced.  They are, unless a payload type, `RET_TYPE` or `CTX_TYPE` is called `self`,
    `ctx` or like a handler parameter, or `NAME` is `v` or `self`. -/
structure SumInstance.WellTyped (U : SumInstance B) : Prop where
  ctors : ∀ ctor ∈ U.decl.ctors, ctor.WellTyped typedefs U.decl
  getters : ∀ getter ∈ U.decl.getters, getter.WellTyped typedefs U.decl
  constGetters : ∀ getter ∈ U.decl.constGetters, getter.WellTyped typedefs U.decl
  matchCases : ∀ c ∈ U.matchFn.cases, U.matchFn.CaseWellTyped typedefs U.decl c
  matchConstCases : ∀ c ∈ U.matchConstFn.cases, U.matchConstFn.CaseWellTyped typedefs U.decl c
  dispatchCases : ∀ c ∈ U.dispatchFn.cases, U.dispatchFn.CaseWellTyped typedefs U.decl c
  destroyCases : ∀ c ∈ U.destroyFn.cases, U.destroyFn.CaseWellTyped typedefs U.decl c
  copyCases : ∀ c ∈ U.copyFn.cases, U.copyFn.CaseWellTyped typedefs U.decl c
  identityCopies : ∀ v ∈ U.VARIANTS, ∀ FN_NAME,
    (sumDefineIdentityCopy FN_NAME v.type).WellTyped typedefs
  noopDestroys : ∀ v ∈ U.VARIANTS, ∀ FN_NAME,
    (sumDefineNoopDestroy FN_NAME v.type).WellTyped typedefs

/-- A `const` in front of `TYPE` and a `const` behind it mean the same: `TYPE` has no star, or both its
    named type and `TYPE` itself are `const` already. -/
def TypeName.constPlacementAgrees (TYPE : TypeName B) : Bool :=
  !TYPE.hasStar || (TYPE.baseIsConst typedefs && (TYPE.denoted typedefs).isConst)

/-! ### Prototypes -/

section Prototypes

variable (D : Dialect B)

/-- The function type that a handler parameter points to. -/
def HandlerParam.fnType (p : HandlerParam B) : Option (FnType B) := do
  let result ← denote typedefs p.result
  let params ← p.args.mapM (denote typedefs)
  some { result := D.resultType result, params := params.map CType.unqualified }

/-- A pointer to a function of type `F` may be passed for the handler parameter (C11 6.5.16.1p1). -/
def HandlerParam.takes (p : HandlerParam B) (F : FnType B) : Prop :=
  ∃ G ∈ p.fnType typedefs D, G.Compatible D F

instance (p : HandlerParam B) (F : FnType B) : Decidable (p.takes typedefs D F) :=
  match found : p.fnType typedefs D with
  | none => .isFalse fun ⟨_, member, _⟩ => by simp [found] at member
  | some G => decidable_of_iff (G.Compatible D F) (by simp [HandlerParam.takes, found])

/-- A call passes one function for each handler parameter, of a type compatible with the one it asks
    for. -/
def SwitchFn.accepts (f : SwitchFn B) (args : List (FnType B)) : Prop :=
  List.Forall₂ (HandlerParam.takes typedefs D) f.params args

instance (f : SwitchFn B) (args : List (FnType B)) : Decidable (f.accepts typedefs D args) :=
  inferInstanceAs (Decidable (List.Forall₂ _ _ _))

end Prototypes

end GenericSumType
