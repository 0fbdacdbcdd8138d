/-
Module: GenericSumType.Proofs.ConstPlacement
Layer: Proofs
Purpose: Which expansions are well typed for which payload types.  Everything that splices `TYPE *` or
  `TYPE const *` is well typed for every spelling of `TYPE`.  `SUM_COPY_PARAM` and
  `SUM_DEFINE_IDENTITY_COPY` splice `const TYPE *`, whose `const` lands on the named type; they are well
  typed exactly for the spellings on which the two placements of `const` agree.
Imports: GenericSumType.Header.Typing, GenericSumType.Proofs.Alignment
Trusted boundary: none
Main exports: westConst_eq_addConst_iff, westConst_unqualified_iff, caseWellTyped_iff,
  identityCopy_wellTyped_iff, expansions_wellTyped_iff, msg_not_wellTyped
Open obligations: none
-/
import GenericSumType.Header.Typing
import GenericSumType.Proofs.Alignment

namespace GenericSumType

variable {B : Type}

/-! ### Where the `const` lands -/

namespace CType

/-- The same with a `const` put behind one side: it must have been there. -/
theorem extendAll_pointer_eq_addConst_iff {S T : CType B} {c : Bool} {tokens : List DeclToken} :
    (pointer S c).extendAll tokens = ((pointer T c).extendAll tokens).addConst ↔
      S = T ∧ ((pointer T c).extendAll tokens).isConst = true := by
  constructor
  · intro same
    have qualified : ((pointer S c).extendAll tokens).isConst = true := by
      rw [same]
      exact isConst_addConst _
    induction tokens generalizing S T c with
    | nil =>
        simp only [extendAll_nil, addConst, pointer.injEq] at same
        simp [same, isConst]
    | cons token tokens ih =>
        cases token with
        | const =>
            exact ih same qualified
        | star =>
            have inner := ih same qualified
            simp only [pointer.injEq, and_true] at inner
            exact inner
  · rintro ⟨rfl, qualified⟩
    exact ((addConst_eq_self_iff _).mpr qualified).symm

/-- Dropping the qualifiers at the top level sees the pointed-to type as well. -/
theorem extendAll_pointer_unqualified_iff {S T : CType B} {c : Bool} {tokens : List DeclToken} :
    ((pointer S c).extendAll tokens).unqualified = ((pointer T c).extendAll tokens).unqualified ↔
      S = T := by
  induction tokens generalizing S T c with
  | nil => simp [unqualified]
  | cons token tokens ih =>
      cases token with
      | const =>
          exact ih
      | star =>
          rw [extendAll_cons, extendAll_cons, extend_star, extend_star, ih]
          simp

/-- Qualifying first or last is the same exactly when no star comes in between, or when both places
    are `const` anyway. -/
theorem addConst_extendAll_iff (T : CType B) (tokens : List DeclToken) :
    T.addConst.extendAll tokens = (T.extendAll tokens).addConst ↔
      DeclToken.star ∉ tokens ∨
        ((T.isConst || tokens.head? == some .const) = true ∧
          (T.extendAll tokens).isConst = true) := by
  induction tokens generalizing T with
  | nil => simp
  | cons token tokens ih =>
      cases token with
      | const =>
          have step := ih T.addConst
          rw [addConst_addConst, isConst_addConst] at step
          rw [extendAll_cons, extendAll_cons, extend_const, extend_const, addConst_addConst, step]
          simp
      | star =>
          rw [extendAll_cons, extendAll_cons, extend_star, extend_star,
            extendAll_pointer_eq_addConst_iff, addConst_eq_self_iff]
          simp

/-- For the value behind the pointer only the named type matters. -/
theorem addConst_extendAll_unqualified_iff (T : CType B) (tokens : List DeclToken) :
    (T.addConst.extendAll tokens).unqualified = (T.extendAll tokens).unqualified ↔
      DeclToken.star ∉ tokens ∨ (T.isConst || tokens.head? == some .const) = true := by
  induction tokens generalizing T with
  | nil => simp
  | cons token tokens ih =>
      cases token with
      | const =>
          simp
      | star =>
          rw [extendAll_cons, extendAll_cons, extend_star, extend_star,
            extendAll_pointer_unqualified_iff, addConst_eq_self_iff]
          simp

end CType

section Placement

variable (typedefs : B → CType B) (TYPE : TypeName B)

/-- `const TYPE` is `TYPE const` exactly on the spellings where the two placements agree. -/
theorem westConst_eq_addConst_iff :
    TYPE.westConst typedefs = (TYPE.denoted typedefs).addConst ↔
      TYPE.constPlacementAgrees typedefs = true := by
  rw [TypeName.westConst, TypeName.denoted, CType.addConst_extendAll_iff]
  simp [TypeName.constPlacementAgrees, TypeName.hasStar, TypeName.baseIsConst, TypeName.denoted]

/-- A value read through `const TYPE *` is a `TYPE` value as soon as the named type is `const` or there
    is no star. -/
theorem westConst_unqualified_iff :
    (TYPE.westConst typedefs).unqualified = (TYPE.denoted typedefs).unqualified ↔
      (!TYPE.hasStar || TYPE.baseIsConst typedefs) = true := by
  rw [TypeName.westConst, TypeName.denoted, CType.addConst_extendAll_unqualified_iff]
  simp [TypeName.hasStar, TypeName.baseIsConst]

end Placement

/-! ### The expansions -/

namespace SumInstance

variable (U : SumInstance B) (typedefs : B → CType B)

/-- A case of an aligned function is well typed when the parameter and the member of its own variant
    fit together. -/
theorem caseWellTyped_iff {f : SwitchFn B} {handlerName : Ident → Ident}
    {paramOf : Variant B → HandlerParam B} {caseBody : Variant B → CaseBody}
    (aligned : U.Aligned f handlerName paramOf caseBody) (i : Fin U.size) :
    f.CaseWellTyped typedefs U.decl
        { label := U.NAME ++ "_" ++ (U.variant i).tag, body := caseBody (U.variant i) } ↔
      ∃ args R, f.argTypes typedefs ((U.variant i).type.denoted typedefs) (caseBody (U.variant i)) =
          some args ∧
        (paramOf (U.variant i)).args.mapM (denote typedefs) = some args ∧
        denote typedefs (paramOf (U.variant i)).result = some R ∧
        f.ResultTyped typedefs U.decl R (caseBody (U.variant i)) := by
  have param := aligned.paramEntry_callee i
  have member : U.decl.memberType typedefs (caseBody (U.variant i)).member =
      some ((U.variant i).type.denoted typedefs) := by
    rw [aligned.member]
    exact U.memberType_tag typedefs i
  constructor
  · rintro ⟨p, T, args, R, foundParam, foundMember, typed⟩
    rw [param, Option.some.injEq] at foundParam
    rw [member, Option.some.injEq] at foundMember
    subst p T
    exact ⟨args, R, typed⟩
  · rintro ⟨args, R, typed⟩
    exact ⟨_, _, args, R, param, member, typed⟩

/-- Every case of an aligned function is the case of some position. -/
theorem forall_cases_iff {f : SwitchFn B} {handlerName : Ident → Ident}
    {paramOf : Variant B → HandlerParam B} {caseBody : Variant B → CaseBody}
    (aligned : U.Aligned f handlerName paramOf caseBody) (P : SwitchCase → Prop) :
    (∀ c ∈ f.cases, P c) ↔
      ∀ i, P { label := U.NAME ++ "_" ++ (U.variant i).tag, body := caseBody (U.variant i) } := by
  rw [aligned.cases]
  constructor
  · intro all i
    exact all _ (List.mem_map.mpr ⟨U.variant i, List.getElem_mem i.isLt, rfl⟩)
  · intro all c member
    rcases List.mem_map.mp member with ⟨v, inside, rfl⟩
    obtain ⟨i, rfl⟩ := List.get_of_mem inside
    exact all i

theorem forall_variants_iff (P : Variant B → Prop) :
    (∀ v ∈ U.VARIANTS, P v) ↔ ∀ i, P (U.variant i) := by
  constructor
  · intro all i
    exact all _ (List.getElem_mem i.isLt)
  · intro all v inside
    obtain ⟨i, rfl⟩ := List.get_of_mem inside
    exact all i

theorem ctors_wellTyped : ∀ ctor ∈ U.decl.ctors, ctor.WellTyped typedefs U.decl := by
  intro ctor member
  rcases List.mem_map.mp member with ⟨v, inside, rfl⟩
  obtain ⟨i, rfl⟩ := List.get_of_mem inside
  exact ⟨_, U.memberType_tag typedefs i, rfl⟩

theorem getters_wellTyped : ∀ getter ∈ U.decl.getters, getter.WellTyped typedefs U.decl := by
  intro getter member
  rcases List.mem_map.mp member with ⟨v, inside, rfl⟩
  obtain ⟨i, rfl⟩ := List.get_of_mem inside
  exact ⟨_, U.memberType_tag typedefs i, denote_text_star typedefs _⟩

/-- The east const of the read-only getter follows `TYPE` through its stars. -/
theorem constGetters_wellTyped :
    ∀ getter ∈ U.decl.constGetters, getter.WellTyped typedefs U.decl := by
  intro getter member
  rcases List.mem_map.mp member with ⟨v, inside, rfl⟩
  obtain ⟨i, rfl⟩ := List.get_of_mem inside
  exact ⟨_, U.memberType_tag typedefs i, denote_text_const_star typedefs _⟩

section Cases

variable {U typedefs} {f : SwitchFn B} {handlerName : Ident → Ident}
variable {paramOf : Variant B → HandlerParam B} {caseBody : Variant B → CaseBody}

/-- The cases are well typed when the parameters take what the cases pass and return `R`. -/
theorem cases_wellTyped (aligned : U.Aligned f handlerName paramOf caseBody) {R : CType B}
    (args : ∀ v, (paramOf v).args.mapM (denote typedefs) =
      f.argTypes typedefs (v.type.denoted typedefs) (caseBody v))
    (types : ∀ v, ((paramOf v).args.mapM (denote typedefs)).isSome)
    (result : ∀ v, denote typedefs (paramOf v).result = some R)
    (returned : ∀ v, f.ResultTyped typedefs U.decl R (caseBody v)) :
    ∀ c ∈ f.cases, f.CaseWellTyped typedefs U.decl c := by
  rw [U.forall_cases_iff aligned]
  intro i
  rw [U.caseWellTyped_iff typedefs aligned]
  obtain ⟨passed, found⟩ := Option.isSome_iff_exists.mp (types (U.variant i))
  exact ⟨passed, R, (args _).symm.trans found, found, result _, returned _⟩

/-- The texts of well-typed cases are types. -/
theorem texts_of_wellTyped (aligned : U.Aligned f handlerName paramOf caseBody)
    (typed : ∀ c ∈ f.cases, f.CaseWellTyped typedefs U.decl c) (i : Fin U.size) :
    ((paramOf (U.variant i)).args.mapM (denote typedefs)).isSome ∧
      (denote typedefs (paramOf (U.variant i)).result).isSome := by
  obtain ⟨args, R, _, found, result, _⟩ :=
    (U.caseWellTyped_iff typedefs aligned i).mp ((U.forall_cases_iff aligned _).mp typed i)
  exact ⟨Option.isSome_of_eq_some found, Option.isSome_of_eq_some result⟩

end Cases

section Texts

variable {U typedefs} (texts : U.TextsAreTypes typedefs)
include texts

theorem match_wellTyped : ∀ c ∈ U.matchFn.cases, U.matchFn.CaseWellTyped typedefs U.decl c := by
  obtain ⟨R, ret⟩ := Option.isSome_iff_exists.mp texts.ret
  have args (v : Variant B) : (sumMatchParam U.NAME U.RET_TYPE v).args.mapM (denote typedefs) =
      some [.pointer (v.type.denoted typedefs) false] := by
    simp [sumMatchParam, denote_text_star]
  exact cases_wellTyped U.aligned_match args (fun v => by rw [args]; rfl) (fun _ => ret) fun _ => ret

theorem matchConst_wellTyped :
    ∀ c ∈ U.matchConstFn.cases, U.matchConstFn.CaseWellTyped typedefs U.decl c := by
  obtain ⟨R, ret⟩ := Option.isSome_iff_exists.mp texts.ret
  have args (v : Variant B) : (sumMatchConstParam U.NAME U.RET_TYPE v).args.mapM (denote typedefs) =
      some [.pointer (v.type.denoted typedefs).addConst false] := by
    simp [sumMatchConstParam, denote_text_const_star]
  exact cases_wellTyped U.aligned_matchConst args (fun v => by rw [args]; rfl) (fun _ => ret) fun _ => ret

theorem dispatch_wellTyped :
    ∀ c ∈ U.dispatchFn.cases, U.dispatchFn.CaseWellTyped typedefs U.decl c := by
  obtain ⟨R, void⟩ := Option.isSome_iff_exists.mp texts.void
  obtain ⟨C, ctx⟩ := Option.isSome_iff_exists.mp texts.ctx
  have args (v : Variant B) :
      (sumDispatchParam U.NAME (U.VOID, U.CTX_TYPE) v).args.mapM (denote typedefs) =
        some [.pointer (v.type.denoted typedefs) false, C] := by
    simp [sumDispatchParam, denote_text_star, ctx]
  have passed (v : Variant B) : U.dispatchFn.argTypes typedefs (v.type.denoted typedefs)
      (sumDispatchCase U.NAME (U.VOID, U.CTX_TYPE) v).body =
        some [.pointer (v.type.denoted typedefs) false, C] := by
    simp [SwitchFn.argTypes, sumDispatchCase, defineSumDispatch, ctx, addressType]
  exact cases_wellTyped U.aligned_dispatch (fun v => (args v).trans (passed v).symm)
    (fun v => by rw [args]; rfl) (fun _ => void) fun _ => trivial

theorem destroy_wellTyped :
    ∀ c ∈ U.destroyFn.cases, U.destroyFn.CaseWellTyped typedefs U.decl c := by
  obtain ⟨R, void⟩ := Option.isSome_iff_exists.mp texts.void
  have args (v : Variant B) : (sumDestroyParam U.NAME U.VOID v).args.mapM (denote typedefs) =
      some [.pointer (v.type.denoted typedefs) false] := by
    simp [sumDestroyParam, denote_text_star]
  exact cases_wellTyped U.aligned_destroy args (fun v => by rw [args]; rfl) (fun _ => void) fun _ =>
    trivial

end Texts

/-- Where the cases are well typed, the texts are types. -/
theorem textsAreTypes_of_wellTyped (typed : U.WellTyped typedefs) : U.TextsAreTypes typedefs := by
  have first : Fin U.size := ⟨0, List.length_pos_iff.mpr U.nonempty⟩
  have dispatched := texts_of_wellTyped U.aligned_dispatch typed.dispatchCases first
  refine
    { ret := (texts_of_wellTyped U.aligned_match typed.matchCases first).2
      void := dispatched.2
      ctx := ?_ }
  obtain ⟨args, found⟩ := Option.isSome_iff_exists.mp dispatched.1
  rw [sumDispatchParam, List.mapM_cons, List.mapM_cons] at found
  cases ctx : denote typedefs (U.CTX_TYPE ++ [.star]) with
  | none =>
      rw [ctx, denote_text_star] at found
      cases found
  | some C => rfl

/-- The west const of the copy handler meets the `const` of `self` only where the two placements
    agree. -/
theorem copy_wellTyped_iff :
    (∀ c ∈ U.copyFn.cases, U.copyFn.CaseWellTyped typedefs U.decl c) ↔
      ∀ v ∈ U.VARIANTS, v.type.constPlacementAgrees typedefs = true := by
  rw [U.forall_cases_iff U.aligned_copy, U.forall_variants_iff]
  apply forall_congr'
  intro i
  rw [U.caseWellTyped_iff typedefs U.aligned_copy, ← westConst_eq_addConst_iff]
  have param : (sumCopyParam U.NAME () (U.variant i)).args.mapM (denote typedefs) =
      some [.pointer ((U.variant i).type.westConst typedefs) false] := by
    simp [sumCopyParam, denote_const_text_star]
  constructor
  · rintro ⟨args, R, passed, taken, _⟩
    have pointers : some [CType.pointer ((U.variant i).type.westConst typedefs) false] =
        some [.pointer ((U.variant i).type.denoted typedefs).addConst false] :=
      (param.symm.trans taken).trans passed.symm
    simpa using pointers
  · intro same
    rw [same] at param
    exact ⟨_, _, rfl, param, denote_text typedefs _, rfl, _, U.memberType_tag typedefs i, rfl⟩

/-- `SUM_DEFINE_IDENTITY_COPY` by itself only needs the named type to be `const` under a star. -/
theorem identityCopy_wellTyped_iff (FN_NAME : Ident) (TYPE : TypeName B) :
    (sumDefineIdentityCopy FN_NAME TYPE).WellTyped typedefs ↔
      (!TYPE.hasStar || TYPE.baseIsConst typedefs) = true := by
  rw [← westConst_unqualified_iff]
  constructor
  · rintro ⟨P, R, param, result, same⟩
    have pointee : CType.pointer P false = .pointer (TYPE.westConst typedefs) false :=
      Option.some.inj (param.symm.trans (denote_const_text_star typedefs TYPE))
    have value : R = TYPE.denoted typedefs :=
      Option.some.inj (result.symm.trans (denote_text typedefs TYPE))
    rw [(CType.pointer.inj pointee).1, value] at same
    exact same
  · intro same
    exact ⟨_, _, denote_const_text_star typedefs TYPE, denote_text typedefs TYPE, same⟩

theorem noopDestroy_wellTyped (FN_NAME : Ident) (TYPE : TypeName B) :
    (sumDefineNoopDestroy FN_NAME TYPE).WellTyped typedefs :=
  ⟨_, denote_text_star typedefs TYPE⟩

/-- All expansions over a variant list are well typed exactly when the texts of `RET_TYPE` and `CTX_TYPE`
    are types and the two placements of `const` agree on every payload type of the list. -/
theorem expansions_wellTyped_iff :
    U.WellTyped typedefs ↔
      U.TextsAreTypes typedefs ∧ ∀ v ∈ U.VARIANTS, v.type.constPlacementAgrees typedefs = true := by
  constructor
  · intro typed
    exact ⟨U.textsAreTypes_of_wellTyped typedefs typed, (U.copy_wellTyped_iff typedefs).mp typed.copyCases⟩
  · rintro ⟨texts, agrees⟩
    refine
      { ctors := U.ctors_wellTyped typedefs
        getters := U.getters_wellTyped typedefs
        constGetters := U.constGetters_wellTyped typedefs
        matchCases := match_wellTyped texts
        matchConstCases := matchConst_wellTyped texts
        dispatchCases := dispatch_wellTyped texts
        destroyCases := destroy_wellTyped texts
        copyCases := (U.copy_wellTyped_iff typedefs).mpr agrees
        identityCopies := ?_
        noopDestroys := fun v _ FN_NAME => noopDestroy_wellTyped typedefs FN_NAME v.type }
    intro v inside FN_NAME
    rw [identityCopy_wellTyped_iff]
    have both := agrees v inside
    simp only [TypeName.constPlacementAgrees, Bool.or_eq_true, Bool.and_eq_true] at both ⊢
    exact both.imp id And.left

end SumInstance

/-- `MSG_VARIANTS` of `verify/cbmc_destroy_harness.c`: one variant, `X(NAME, EXTRA, text, char*)`. -/
def msg : SumInstance Ident where
  NAME := "Msg"
  VARIANTS := [{ tag := "text", type := { base := "char", tail := [.star] } }]
  RET_TYPE := [.name "int"]
  VOID := [.name "void"]
  CTX_TYPE := [.name "int"]
  nonempty := by simp
  tagsDistinct := by simp
  onParamsVisible := by decide
  copyParamsVisible := by decide

/-- The copy handler of `Msg` takes a `char const **`, but its case passes a `char *const *`. -/
theorem msg_not_wellTyped : ¬ msg.WellTyped fun b => .named b false := by
  intro typed
  have agrees := (msg.copy_wellTyped_iff _).mp typed.copyCases
  exact absurd agrees (by decide)

end GenericSumType
