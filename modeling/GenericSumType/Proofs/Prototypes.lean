/-
Module: GenericSumType.Proofs.Prototypes
Layer: Proofs
Purpose: What the prototype of a generated function catches.  A call is accepted exactly when it passes
  one handler for each variant whose type is compatible with the one that the variant asks for.  The
  promise of the header, that only literally the same payload types escape, holds exactly on the lists
  whose payload types have no other compatible type and whose prototype shows their `const`.
Imports: GenericSumType.Library.ArgumentCheck, GenericSumType.Spec.Prototypes,
  GenericSumType.Proofs.ConstPlacement
Trusted boundary: none
Main exports: accepts_iff_passes, takes_handlerType_iff, alike_exact_iff, misroutes_of_alike,
  run_argument, prototype_check_characterised
Open obligations: none
-/
import GenericSumType.Library.ArgumentCheck
import GenericSumType.Spec.Prototypes
import GenericSumType.Proofs.ConstPlacement

namespace GenericSumType

open ArgumentCheck

variable {B : Type}

/-! ### What a prototype sees -/

section Alike

variable {D : Dialect B} {k : Generator} {T S : CType B}

theorem alike_refl : k.Alike D T T := CType.compatible_refl _

theorem alike_symm (alike : k.Alike D T S) : k.Alike D S T := CType.compatible_symm alike

/-- Where the prototype shows a `const`, it tells types apart up to compatibility. -/
theorem alike_of_sees (sees : k.seesConst D = true) : k.Alike D T S ↔ T.compatible D S = true := by
  rw [Generator.Alike, payloadKey, payloadKey, if_pos sees, if_pos sees]

theorem alike_of_not_sees (hides : k.seesConst D = false) :
    k.Alike D T S ↔ T.unqualified.compatible D S.unqualified = true := by
  rw [Generator.Alike, payloadKey, payloadKey, hides]
  rfl

/-- The prototype lets no other type through for `T` exactly when it shows a `const` and the named type of
    `T` is compatible with no other. -/
theorem alike_exact_iff : (∀ S, k.Alike D S T ↔ S = T) ↔ k.seesConst D = true ∧ D.Alone T.base := by
  cases sees : k.seesConst D with
  | true =>
      simp only [alike_of_sees sees, true_and]
      exact CType.compatible_exact_iff
  | false =>
      simp only [Bool.false_eq_true, false_and, iff_false]
      intro exact
      -- the type with and without its own `const`
      have unqualified : T.unqualified = T := by
        apply (exact T.unqualified).mp
        rw [alike_of_not_sees sees, CType.unqualified_unqualified]
        exact CType.compatible_refl _
      have qualified : T.addConst = T := by
        apply (exact T.addConst).mp
        rw [alike_of_not_sees sees, CType.unqualified_addConst]
        exact CType.compatible_refl _
      have isConst := T.isConst_addConst
      rw [qualified, ← unqualified, CType.isConst_unqualified] at isConst
      cases isConst

end Alike

namespace SumInstance

variable {U : SumInstance B} {typedefs : B → CType B} {D : Dialect B}

theorem aligned_generated (U : SumInstance B) (k : Generator) :
    U.Aligned (U.generated k) (U.handlerName k) (U.paramOf k) fun v => (U.caseOf k v).body := by
  cases k with
  | sumMatch => exact U.aligned_match
  | sumMatchConst => exact U.aligned_matchConst
  | sumDispatch => exact U.aligned_dispatch
  | sumDestroy => exact U.aligned_destroy
  | sumCopy => exact U.aligned_copy

/-- The check of a call is a check of its arguments by position. -/
theorem accepts_iff_passes {k : Generator} {args : List (FnType B)} :
    (U.generated k).accepts typedefs D args ↔
      Passes (fun i => (U.paramOf k (U.variant i)).takes typedefs D) args := by
  have params : (U.generated k).params = List.ofFn fun i => U.paramOf k (U.variant i) := by
    have whole : List.ofFn U.variant = U.VARIANTS := List.ofFn_getElem
    rw [(U.aligned_generated k).params]
    conv_lhs => rw [← whole, List.map_ofFn]
    rfl
  rw [SwitchFn.accepts, params, forall₂_ofFn_iff]

/-- After a reordering, every position checks for the variant that is there now. -/
theorem accepts_reorder_iff {k : Generator} {s : Equiv.Perm (Fin U.size)} {args : List (FnType B)} :
    ((U.reorder s).generated k).accepts typedefs D args ↔
      Passes (fun i => (U.paramOf k (U.variant (s i))).takes typedefs D) args := by
  have params : ((U.reorder s).generated k).params =
      List.ofFn fun i => U.paramOf k (U.variant (s i)) := by
    have positions : (U.reorder s).VARIANTS = List.ofFn fun i => U.variant (s i) := rfl
    rw [((U.reorder s).aligned_generated k).params, positions, List.map_ofFn]
    cases k <;> rfl
  rw [SwitchFn.accepts, params, forall₂_ofFn_iff]

/-- The number of handlers is checked whatever their types are. -/
theorem length_of_accepts {k : Generator} {args : List (FnType B)}
    (accepted : (U.generated k).accepts typedefs D args) : args.length = U.size :=
  length_of_passes (accepts_iff_passes.mp accepted)

/-- One variant more or less is one handler more or less. -/
theorem rejected_of_size_ne {V : SumInstance B} (changed : U.size ≠ V.size) {k : Generator}
    {args : List (FnType B)} (accepted : (U.generated k).accepts typedefs D args) :
    ¬ (V.generated k).accepts typedefs D args := by
  intro again
  exact changed ((length_of_accepts accepted).symm.trans (length_of_accepts again))

/-! ### What one parameter takes -/

section Parameters

variable (texts : U.SpliceTypes typedefs)

/-- The parameter expanded from a variant asks for the handler type of its payload, except that the copy
    handler takes a pointer to `const TYPE`. -/
theorem fnType_paramOf (k : Generator) (v : Variant B) :
    (U.paramOf k v).fnType typedefs D =
      some
        { texts.handlerType D k (v.type.denoted typedefs) with
          params :=
            if k = .sumCopy then [.pointer (v.type.westConst typedefs) false]
            else (texts.handlerType D k (v.type.denoted typedefs)).params } := by
  have star := denote_text_star typedefs v.type
  cases k with
  | sumMatch =>
      simp [paramOf, HandlerParam.fnType, sumMatchParam, SpliceTypes.handlerType, texts.denotesRet,
        star]
  | sumMatchConst =>
      have constStar := denote_text_const_star typedefs v.type
      simp [paramOf, HandlerParam.fnType, sumMatchConstParam, SpliceTypes.handlerType,
        texts.denotesRet, constStar]
  | sumDispatch =>
      simp [paramOf, HandlerParam.fnType, sumDispatchParam, SpliceTypes.handlerType,
        texts.denotesVoid, texts.denotesCtx, star]
  | sumDestroy =>
      simp [paramOf, HandlerParam.fnType, sumDestroyParam, SpliceTypes.handlerType,
        texts.denotesVoid, star]
  | sumCopy =>
      have constFront := denote_const_text_star typedefs v.type
      simp [paramOf, HandlerParam.fnType, sumCopyParam, SpliceTypes.handlerType, denote_text,
        constFront]

/-- Where the two placements of `const` agree, it is the handler type of its payload. -/
theorem fnType_of_agrees {k : Generator} {v : Variant B}
    (agrees : k = .sumCopy → v.type.constPlacementAgrees typedefs = true) :
    (U.paramOf k v).fnType typedefs D = some (texts.handlerType D k (v.type.denoted typedefs)) := by
  rw [fnType_paramOf texts]
  cases k with
  | sumCopy =>
      rw [if_pos rfl, (westConst_eq_addConst_iff typedefs v.type).mpr (agrees rfl)]
      rfl
  | _ => rfl

theorem takes_iff {k : Generator} {v : Variant B}
    (agrees : k = .sumCopy → v.type.constPlacementAgrees typedefs = true) {F : FnType B} :
    (U.paramOf k v).takes typedefs D F ↔
      (texts.handlerType D k (v.type.denoted typedefs)).Compatible D F := by
  rw [HandlerParam.takes, fnType_of_agrees texts agrees]
  simp

/-- Handlers have compatible types exactly when the prototype sees compatible payload types. -/
theorem handlerType_compatible_iff {k : Generator} {T S : CType B} :
    (texts.handlerType D k T).Compatible D (texts.handlerType D k S) ↔ k.Alike D T S := by
  cases k with
  | sumCopy =>
      cases sees : D.resultQualified with
      | true =>
          have seen := @alike_of_sees _ D .sumCopy T S sees
          simp only [SpliceTypes.handlerType, FnType.Compatible, Dialect.resultType, sees, if_pos, seen,
            List.forall₂_cons, List.Forall₂.nil, CType.compatible_pointer, CType.compatible_addConst,
            beq_self_eq_true, Bool.and_true, and_true]
          exact and_iff_left_of_imp CType.compatible_unqualified
      | false =>
          have seen := @alike_of_not_sees _ D .sumCopy T S sees
          simp [SpliceTypes.handlerType, FnType.Compatible, Dialect.resultType, sees, seen,
            CType.compatible_addConst]
  | sumMatchConst =>
      have seen := @alike_of_not_sees _ D .sumMatchConst T S rfl
      simp [SpliceTypes.handlerType, FnType.Compatible, CType.compatible_refl, seen,
        CType.compatible_addConst]
  | sumMatch | sumDispatch | sumDestroy =>
      rw [alike_of_sees rfl]
      simp [SpliceTypes.handlerType, FnType.Compatible, CType.compatible_refl]

/-- What a parameter takes among the handlers described by their payload type. -/
theorem takes_handlerType_iff {k : Generator} {v : Variant B}
    (agrees : k = .sumCopy → v.type.constPlacementAgrees typedefs = true) {T : CType B} :
    (U.paramOf k v).takes typedefs D (texts.handlerType D k T) ↔
      k.Alike D (v.type.denoted typedefs) T := by
  rw [takes_iff texts agrees, handlerType_compatible_iff]

/-- A parameter of the copy function that takes the handler of its own payload has its `const` in the right
    place. -/
theorem agrees_of_takes {v : Variant B}
    (taken : (U.paramOf .sumCopy v).takes typedefs D
      (texts.handlerType D .sumCopy (v.type.denoted typedefs))) :
    v.type.constPlacementAgrees typedefs = true := by
  obtain ⟨G, found, _, params⟩ := taken
  rw [fnType_paramOf texts, Option.mem_some_iff] at found
  subst found
  have pointees : (v.type.westConst typedefs).compatible D (v.type.denoted typedefs).addConst = true := by
    simpa [SpliceTypes.handlerType] using params
  have bases : (v.type.westConst typedefs).base = (v.type.denoted typedefs).addConst.base := by
    rw [TypeName.westConst, TypeName.denoted, CType.base_addConst, CType.base_extendAll,
      CType.base_extendAll, CType.base_addConst]
  exact (westConst_eq_addConst_iff typedefs v.type).mp
    ((CType.compatible_iff_eq_of_base_eq bases).mp pointees)

/-- The payload type that a function handles, read off its type. -/
def handledType (D : Dialect B) (k : Generator) (F : FnType B) : CType B :=
  match k, F.params with
  | .sumCopy, .pointer T _ :: _ => if D.resultQualified then F.result else T
  | _, .pointer T _ :: _ => T
  | _, _ => F.result

/-- The first parameter of a compatible function points to a compatible type. -/
theorem pointee_of_forall₂ {T : CType B} {rest params : List (CType B)}
    (compatible : List.Forall₂ (fun T U => T.compatible D U = true) (.pointer T false :: rest) params) :
    ∃ S c others, params = .pointer S c :: others ∧ T.compatible D S = true := by
  cases compatible with
  | @cons _ P _ others fit _ =>
      cases P with
      | named b c => cases fit
      | pointer S c =>
          rw [CType.compatible_pointer, Bool.and_eq_true] at fit
          exact ⟨S, c, others, rfl, fit.1⟩

theorem alike_handledType {k : Generator} {T : CType B} {F : FnType B}
    (compatible : (texts.handlerType D k T).Compatible D F) : k.Alike D T (handledType D k F) := by
  obtain ⟨result, params⟩ := compatible
  obtain ⟨R, Ps⟩ := F
  cases k with
  | sumCopy =>
      obtain ⟨S, c, others, rfl, fit⟩ := pointee_of_forall₂ params
      change Generator.Alike D .sumCopy T (if D.resultQualified then R else S)
      cases sees : D.resultQualified with
      | true =>
          have kept : T.compatible D R = true := by
            simpa [SpliceTypes.handlerType, Dialect.resultType, sees] using result
          exact (@alike_of_sees _ D .sumCopy T R sees).mpr kept
      | false =>
          have values := CType.compatible_unqualified fit
          rw [CType.unqualified_addConst] at values
          exact (@alike_of_not_sees _ D .sumCopy T S sees).mpr values
  | sumMatchConst =>
      obtain ⟨S, c, others, rfl, fit⟩ := pointee_of_forall₂ params
      have values := CType.compatible_unqualified fit
      rw [CType.unqualified_addConst] at values
      exact (@alike_of_not_sees _ D .sumMatchConst T S rfl).mpr values
  | sumMatch | sumDispatch | sumDestroy =>
      obtain ⟨S, c, others, rfl, fit⟩ := pointee_of_forall₂ params
      exact (alike_of_sees rfl).mpr fit

include texts in
/-- A function that two parameters take handles a payload type that the prototype confuses with both. -/
theorem shared_handler_iff {k : Generator} {v w : Variant B}
    (agrees : k = .sumCopy → v.type.constPlacementAgrees typedefs = true)
    (agrees' : k = .sumCopy → w.type.constPlacementAgrees typedefs = true) :
    (∃ F, (U.paramOf k v).takes typedefs D F ∧ (U.paramOf k w).takes typedefs D F) ↔
      ∃ T, k.Alike D (v.type.denoted typedefs) T ∧ k.Alike D (w.type.denoted typedefs) T := by
  constructor
  · rintro ⟨F, taken, taken'⟩
    exact ⟨handledType D k F, alike_handledType texts ((takes_iff texts agrees).mp taken),
      alike_handledType texts ((takes_iff texts agrees').mp taken')⟩
  · rintro ⟨T, alike, alike'⟩
    exact ⟨texts.handlerType D k T, (takes_handlerType_iff texts agrees).mpr alike,
      (takes_handlerType_iff texts agrees').mpr alike'⟩

end Parameters

/-! ### The promise of the header -/

section Promise

variable {k : Generator} (texts : U.SpliceTypes typedefs)

/-- The agreement at one position of a list on which `const` is placed right. -/
theorem ConstPlaced.at (placed : U.ConstPlaced typedefs k) (i : Fin U.size) :
    k = .sumCopy → (U.variant i).type.constPlacementAgrees typedefs = true :=
  fun copies => placed copies _ (List.getElem_mem i.isLt)

/-- Handlers for given payload types are checked by position. -/
theorem accepts_map_handlerType_iff {Ts : List (CType B)} :
    (U.generated k).accepts typedefs D (Ts.map (texts.handlerType D k)) ↔
      Passes (fun i T => (U.paramOf k (U.variant i)).takes typedefs D (texts.handlerType D k T)) Ts := by
  rw [accepts_iff_passes, passes_map_iff]

/-- A call is accepted for exactly the payload types of the list when the list places its `const` right, the
    prototype shows a `const`, and no other type is compatible with a payload type. -/
theorem calls_exact_iff :
    (∀ Ts : List (CType B), (U.generated k).accepts typedefs D (Ts.map (texts.handlerType D k)) ↔
        Ts = List.ofFn (U.typeAt typedefs)) ↔
      U.ConstPlaced typedefs k ∧ k.seesConst D = true ∧ ∀ i, D.Alone (U.typeAt typedefs i).base := by
  simp only [accepts_map_handlerType_iff, exact_iff]
  constructor
  · intro exact
    have placed : U.ConstPlaced typedefs k := by
      rintro rfl v inside
      obtain ⟨i, rfl⟩ := List.get_of_mem inside
      exact agrees_of_takes texts ((exact i _).mpr rfl)
    have apart (i : Fin U.size) : k.seesConst D = true ∧ D.Alone (U.typeAt typedefs i).base := by
      apply alike_exact_iff.mp
      intro T
      rw [← exact i T, takes_handlerType_iff texts (placed.at i)]
      exact ⟨alike_symm, alike_symm⟩
    have first : Fin U.size := ⟨0, List.length_pos_iff.mpr U.nonempty⟩
    exact ⟨placed, (apart first).1, fun i => (apart i).2⟩
  · rintro ⟨placed, sees, alone⟩ i T
    rw [takes_handlerType_iff texts (placed.at i), ← alike_exact_iff.mpr ⟨sees, alone i⟩]
    exact ⟨alike_symm, alike_symm⟩

/-- The handlers of a list of that kind pass for each other exactly when the prototype confuses their
    payload types. -/
theorem takes_own_iff (placed : U.ConstPlaced typedefs k) (i j : Fin U.size) :
    (U.paramOf k (U.variant i)).takes typedefs D (texts.handlerType D k (U.typeAt typedefs j)) ↔
      k.Alike D (U.typeAt typedefs i) (U.typeAt typedefs j) :=
  takes_handlerType_iff texts (placed.at i)

/-- The permutations of the right handlers are told apart by payload type exactly when the prototype
    confuses no two different payload types of the list. -/
theorem permutations_exact_iff (placed : U.ConstPlaced typedefs k) :
    (∀ s : Equiv.Perm (Fin U.size),
        (U.generated k).accepts typedefs D (texts.permuted D k s) ↔
          ∀ i, U.typeAt typedefs (s i) = U.typeAt typedefs i) ↔
      ∀ i j, k.Alike D (U.typeAt typedefs i) (U.typeAt typedefs j) →
        U.typeAt typedefs i = U.typeAt typedefs j := by
  have shared (i j : Fin U.size) (same : U.typeAt typedefs i = U.typeAt typedefs j) :
      (U.paramOf k (U.variant i)).takes typedefs D (texts.handlerType D k (U.typeAt typedefs j)) := by
    rw [takes_own_iff texts placed, same]
    exact alike_refl
  have converse (i j : Fin U.size)
      (taken : (U.paramOf k (U.variant i)).takes typedefs D
        (texts.handlerType D k (U.typeAt typedefs j))) :
      (U.paramOf k (U.variant j)).takes typedefs D (texts.handlerType D k (U.typeAt typedefs i)) := by
    rw [takes_own_iff texts placed] at taken ⊢
    exact alike_symm taken
  simp only [accepts_iff_passes, SpliceTypes.permuted, ← takes_own_iff texts placed]
  exact permutations_iff shared converse

include texts in
/-- Reordering the list keeps exactly the accepted call sites whose payload types stay in place, when the
    prototype confuses no type with two different payload types of the list, and only then. -/
theorem reorderings_exact_iff (placed : U.ConstPlaced typedefs k) :
    (∀ (s : Equiv.Perm (Fin U.size)) (args : List (FnType B)),
        (U.generated k).accepts typedefs D args →
          (((U.reorder s).generated k).accepts typedefs D args ↔
            ∀ i, U.typeAt typedefs (s i) = U.typeAt typedefs i)) ↔
      ∀ i j T, k.Alike D (U.typeAt typedefs i) T → k.Alike D (U.typeAt typedefs j) T →
        U.typeAt typedefs i = U.typeAt typedefs j := by
  have inhabited (i : Fin U.size) : ∃ F, (U.paramOf k (U.variant i)).takes typedefs D F :=
    ⟨_, (takes_own_iff texts placed i i).mpr alike_refl⟩
  have shared (i j : Fin U.size) (F : FnType B) (same : U.typeAt typedefs i = U.typeAt typedefs j)
      (taken : (U.paramOf k (U.variant i)).takes typedefs D F) :
      (U.paramOf k (U.variant j)).takes typedefs D F := by
    have compatible := (takes_iff texts (placed.at i)).mp taken
    apply (takes_iff texts (placed.at j)).mpr
    change (texts.handlerType D k (U.typeAt typedefs j)).Compatible D F
    rw [← same]
    exact compatible
  simp only [accepts_reorder_iff]
  simp only [accepts_iff_passes]
  rw [reorderings_iff inhabited shared]
  constructor
  · intro apart i j T alike alike'
    obtain ⟨F, taken, taken'⟩ :=
      (shared_handler_iff texts (placed.at i) (placed.at j)).mpr ⟨T, alike, alike'⟩
    exact apart i j F taken taken'
  · intro apart i j F taken taken'
    obtain ⟨T, alike, alike'⟩ :=
      (shared_handler_iff texts (placed.at i) (placed.at j)).mp ⟨F, taken, taken'⟩
    exact apart i j T alike alike'

end Promise

/-! ### What an accepted wrong order does -/

section Run

variable [DecidableEq B] {M : TypeModel B} {σ : Type} {R : CType B → Type}

/-- Whatever handler stands at the position of the active variant is called on its payload. -/
theorem run_argument (U : SumInstance B) (k : Generator) (hooks : CtxHooks σ)
    {args : List (Handler M σ R)} {h : Handler M σ R} {i : Fin U.size}
    (passed : args[(i : Nat)]? = some h)
    (same : (U.payloadType M i).unqualified = h.type.unqualified) (w : σ) (x : U.Payload M i) :
    ∃ done r, (U.generated k).run U.decl hooks args w (U.encode M ⟨i, x⟩) = .ok (done, r) ∧
      done.calls = [((i : Nat), ⟨U.payloadType M i, x⟩)] ∧
      done.world = k.leave hooks
        (h.run (k.enter hooks w) (cast (congrArg M.Val same) x)).1 := by
  cases k with
  | sumMatch =>
      exact ⟨_, _, U.aligned_match.runStmts_switch hooks passed same x rfl [.unreachable], rfl, rfl⟩
  | sumMatchConst =>
      exact ⟨_, _, U.aligned_matchConst.runStmts_switch hooks passed same x rfl [.unreachable],
        rfl, rfl⟩
  | sumDispatch =>
      exact ⟨_, _, U.aligned_dispatch.runStmts_switch hooks passed same x rfl [.unlock], rfl, rfl⟩
  | sumDestroy =>
      exact ⟨_, _, U.aligned_destroy.runStmts_switch hooks passed same x rfl [], rfl, rfl⟩
  | sumCopy =>
      exact ⟨_, _, U.aligned_copy.runStmts_switch hooks passed same x rfl [.unreachable], rfl, rfl⟩

end Run

section Theorem

variable [DecidableEq B] {M : TypeModel B} {k : Generator} (texts : U.SpliceTypes M.typedefs)

/-- Two positions that the prototype confuses can be swapped, and then the payload of one reaches the
    handler of the other. -/
theorem misroutes_of_alike (placed : U.ConstPlaced M.typedefs k) {i j : Fin U.size} (different : i ≠ j)
    (alike : k.Alike D (U.typeAt M.typedefs i) (U.typeAt M.typedefs j))
    (same : (U.payloadType M i).unqualified = (U.payloadType M j).unqualified) :
    texts.Misroutes D k i j := by
  refine ⟨Equiv.swap i j, ?_, Equiv.swap_apply_left i j, ?_, same, ?_⟩
  · intro trivial
    apply different
    have moved := Equiv.swap_apply_left i j
    rw [trivial] at moved
    exact moved
  · rw [accepts_iff_passes, SpliceTypes.permuted, passes_ofFn]
    simp only [takes_own_iff texts placed]
    exact @forall_swap _ (fun l m => k.Alike D (U.typeAt M.typedefs l) (U.typeAt M.typedefs m)) i j alike
      (alike_symm alike) fun _ => alike_refl
  · intro σ R hooks handlers w x
    have passed : (List.ofFn fun l =>
        ({ type := U.payloadType M (Equiv.swap i j l)
           run := handlers (Equiv.swap i j l) } : Handler M σ R))[(i : Nat)]? =
          some { type := U.payloadType M j, run := handlers j } := by
      rw [List.getElem?_ofFn, dif_pos i.isLt]
      exact congrArg
        (fun l => some ({ type := U.payloadType M l, run := handlers l } : Handler M σ R))
        (Equiv.swap_apply_left i j)
    exact run_argument U k hooks passed same w x

/-- The promise holds where the calls are checked exactly; the rest of it follows. -/
theorem orderCheck_iff :
    U.OrderCheck texts D k ↔
      U.ConstPlaced M.typedefs k ∧ k.seesConst D = true ∧
        ∀ i, D.Alone (U.typeAt M.typedefs i).base := by
  constructor
  · intro check
    exact (calls_exact_iff texts).mp check.calls
  · intro exactly
    obtain ⟨placed, sees, alone⟩ := exactly
    have apart (i : Fin U.size) (T : CType B) : k.Alike D T (U.typeAt M.typedefs i) ↔
        T = U.typeAt M.typedefs i := alike_exact_iff.mpr ⟨sees, alone i⟩ T
    have permutations := (permutations_exact_iff texts placed).mpr fun i j alike =>
      (apart j _).mp alike
    exact
      { calls := (calls_exact_iff texts).mpr ⟨placed, sees, alone⟩
        permutations := permutations
        distinct := fun injective s =>
          (permutations s).trans (keeps_keys_iff_of_injective injective s)
        shared := by
          intro i j different same
          refine misroutes_of_alike texts placed different ?_ (congrArg CType.unqualified same)
          rw [same]
          exact alike_refl
        sizes := by
          intro before after v smaller larger without within args
          have changed : smaller.size ≠ larger.size := by
            simp [SumInstance.size, without, within]
          exact ⟨rejected_of_size_ne changed, rejected_of_size_ne changed.symm⟩
        reorderings := (reorderings_exact_iff texts placed).mpr fun i j T alike alike' =>
          ((apart i T).mp (alike_symm alike)).symm.trans ((apart j T).mp (alike_symm alike')) }

/-- The prototype check of every generated function, on every variant list.  It keeps the promise of the
    header, that only literally the same payload types escape it, exactly when the list places its `const`
    right, the prototype shows a `const` of the payload type, and the named types of the payloads are
    compatible with no other.  The second part says what the check does on every list that places its
    `const` right: which calls it accepts, and when permutations of the right handlers and reorderings of
    the list are still told apart by payload type. -/
theorem prototype_check_characterised (U : SumInstance B) (M : TypeModel B) (D : Dialect B)
    (texts : U.SpliceTypes M.typedefs) (k : Generator) :
    (U.OrderCheck texts D k ↔
      U.ConstPlaced M.typedefs k ∧ k.seesConst D = true ∧
        ∀ i, D.Alone (U.typeAt M.typedefs i).base) ∧
    (U.ConstPlaced M.typedefs k →
      (∀ Ts : List (CType B),
        (U.generated k).accepts M.typedefs D (Ts.map (texts.handlerType D k)) ↔
          Ts.length = U.size ∧ ∀ i : Fin U.size, ∀ T, Ts[(i : Nat)]? = some T →
            k.Alike D (U.typeAt M.typedefs i) T) ∧
      ((∀ s : Equiv.Perm (Fin U.size),
          (U.generated k).accepts M.typedefs D (texts.permuted D k s) ↔
            ∀ i, U.typeAt M.typedefs (s i) = U.typeAt M.typedefs i) ↔
        ∀ i j, k.Alike D (U.typeAt M.typedefs i) (U.typeAt M.typedefs j) →
          U.typeAt M.typedefs i = U.typeAt M.typedefs j) ∧
      ((∀ (s : Equiv.Perm (Fin U.size)) (args : List (FnType B)),
          (U.generated k).accepts M.typedefs D args →
            (((U.reorder s).generated k).accepts M.typedefs D args ↔
              ∀ i, U.typeAt M.typedefs (s i) = U.typeAt M.typedefs i)) ↔
        ∀ i j T, k.Alike D (U.typeAt M.typedefs i) T → k.Alike D (U.typeAt M.typedefs j) T →
          U.typeAt M.typedefs i = U.typeAt M.typedefs j)) := by
  refine ⟨orderCheck_iff texts, ?_⟩
  intro placed
  refine ⟨?_, permutations_exact_iff texts placed, reorderings_exact_iff texts placed⟩
  intro Ts
  rw [accepts_map_handlerType_iff, passes_iff_length]
  simp only [takes_handlerType_iff texts (placed.at _)]
  rfl

end Theorem

end SumInstance

/-! ### Three lists -/

/-- Type names that stand for themselves, and `typedef int const cint;`. -/
def cintNames (b : Ident) : CType Ident :=
  if b = "cint" then .named "int" true else .named b false

/-- All payloads as lists of numbers. -/
def numberModel : TypeModel Ident where
  typedefs := cintNames
  Val _ := List Int
  zero _ := [0]

/-- The order in which two handlers are passed by mistake. -/
def swapped : Equiv.Perm (Fin 2) := Equiv.swap 0 1

/-- The texts of the three lists. -/
def intTexts (U : SumInstance Ident) (ret : U.RET_TYPE = [.name "int"]) (void : U.VOID = [.name "void"])
    (ctx : U.CTX_TYPE = [.name "int"]) : U.SpliceTypes numberModel.typedefs where
  RET_TYPE := .named "int" false
  VOID := .named "void" false
  CTX_TYPE := .named "int" false
  denotesRet := by rw [ret]; rfl
  denotesVoid := by rw [void]; rfl
  denotesCtx := by rw [ctx]; rfl

/-- The list of `swapped_diff_type.c` in `tests/test_compile_guarantees.sh`. -/
def commands : SumInstance Ident where
  NAME := "Cmd"
  VARIANTS :=
    [{ tag := "attack", type := { base := "CmdAttack", tail := [] } },
      { tag := "heal", type := { base := "CmdHeal", tail := [] } }]
  RET_TYPE := [.name "int"]
  VOID := [.name "void"]
  CTX_TYPE := [.name "int"]
  nonempty := by simp
  tagsDistinct := by simp
  onParamsVisible := by decide
  copyParamsVisible := by decide

/-- The order of the handlers is checked as promised by `MATCH`; `COPY` rejects the swapped handlers. -/
theorem commands_order_checked :
    commands.OrderCheck (intTexts commands rfl rfl rfl) unsignedEnums .sumMatch ∧
      ¬(commands.generated .sumCopy).accepts cintNames unsignedEnums
        ((intTexts commands rfl rfl rfl).permuted unsignedEnums .sumCopy swapped) := by
  constructor
  · have characterised := SumInstance.prototype_check_characterised commands numberModel unsignedEnums
      (intTexts commands rfl rfl rfl) .sumMatch
    have placed : commands.ConstPlaced cintNames .sumMatch := by
      intro copies
      cases copies
    refine characterised.1.mpr ⟨placed, rfl, ?_⟩
    intro i
    exact unsignedEnums_alone (by revert i; decide) (by revert i; decide)
  · have characterised := SumInstance.prototype_check_characterised commands numberModel unsignedEnums
      (intTexts commands rfl rfl rfl) .sumCopy
    have placed : commands.ConstPlaced cintNames .sumCopy := by
      intro _
      decide
    have permutations := (characterised.2 placed).2.1.mpr (by decide)
    intro accepted
    exact absurd ((permutations swapped).mp accepted (0 : Fin 2)) (by decide)

/-- Payloads of an enumeration and of the integer type that represents it. -/
def pixels : SumInstance Ident where
  NAME := "Pixel"
  VARIANTS :=
    [{ tag := "hue", type := { base := "enum color", tail := [] } },
      { tag := "raw", type := { base := "unsigned int", tail := [] } }]
  RET_TYPE := [.name "int"]
  VOID := [.name "void"]
  CTX_TYPE := [.name "int"]
  nonempty := by simp
  tagsDistinct := by simp
  onParamsVisible := by decide
  copyParamsVisible := by decide

/-- Payloads of one type with and without `const`. -/
def settings : SumInstance Ident where
  NAME := "Settings"
  VARIANTS :=
    [{ tag := "limit", type := { base := "cint", tail := [] } },
      { tag := "level", type := { base := "int", tail := [] } }]
  RET_TYPE := [.name "int"]
  VOID := [.name "void"]
  CTX_TYPE := [.name "int"]
  nonempty := by simp
  tagsDistinct := by simp
  onParamsVisible := by decide
  copyParamsVisible := by decide

/-- Both orders of the handlers of `pixels` are accepted by `MATCH`, and both of `settings` by
    `MATCH_CONST`, although the payload types differ. -/
theorem swapped_handlers_accepted :
    (pixels.typeAt cintNames (0 : Fin 2) ≠ pixels.typeAt cintNames (1 : Fin 2) ∧
      (pixels.generated .sumMatch).accepts cintNames unsignedEnums
        ((intTexts pixels rfl rfl rfl).permuted unsignedEnums .sumMatch swapped) ∧
      ¬pixels.OrderCheck (intTexts pixels rfl rfl rfl) unsignedEnums .sumMatch) ∧
    settings.typeAt cintNames (0 : Fin 2) ≠ settings.typeAt cintNames (1 : Fin 2) ∧
      (settings.generated .sumMatchConst).accepts cintNames unsignedEnums
        ((intTexts settings rfl rfl rfl).permuted unsignedEnums .sumMatchConst swapped) ∧
      ¬settings.OrderCheck (intTexts settings rfl rfl rfl) unsignedEnums .sumMatchConst := by
  refine ⟨⟨by decide, by decide, ?_⟩, by decide, by decide, ?_⟩
  · intro check
    have same := (check.permutations swapped).mp (by decide)
    exact absurd (same (0 : Fin 2)) (by decide)
  · intro check
    have same := (check.permutations swapped).mp (by decide)
    exact absurd (same (0 : Fin 2)) (by decide)

end GenericSumType
