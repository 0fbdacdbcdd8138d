/-
Module: GenericSumType.Spec.Prototypes
Layer: Spec
Purpose: What the handler parameters of a generated function are for.  The user thinks of a handler as
  "the handler for payloads of type `T`"; `handlerType` is the function type that a handler so described
  has, and `Alike` is what the prototype of a generated function can still tell about `T`.  Reordering the
  variant list is an operation on instances.  `OrderCheck` is what the comments of the header promise.
Imports: GenericSumType.Header.Typing, GenericSumType.Spec.Coproduct, Mathlib.Data.List.FinRange
Trusted boundary: human-reviewed statement of purpose
Main exports: Generator, SumInstance.generated, SpliceTypes, SpliceTypes.handlerType, Generator.Alike,
  SumInstance.reorder, ConstPlaced, SumInstance.OrderCheck
Open obligations: none
-/
import GenericSumType.Header.Typing
import GenericSumType.Spec.Coproduct
import Mathlib.Data.List.FinRange

namespace GenericSumType

/-- The generators whose functions take one handler for each variant. -/
inductive Generator where
  | sumMatch
  | sumMatchConst
  | sumDispatch
  | sumDestroy
  | sumCopy
deriving DecidableEq, Repr

section Payloads

variable {B : Type} (D : Dialect B)

/-- The prototype shows a `const` at the top level of the payload type.  Behind `TYPE const *` it makes no
    difference, and a result may lose it. -/
def Generator.seesConst : Generator → Bool
  | .sumMatchConst => false
  | .sumCopy => D.resultQualified
  | _ => true

/-- What a prototype sees of a payload type. -/
def payloadKey (k : Generator) (T : CType B) : CType B :=
  if k.seesConst D then T else T.unqualified

/-- Payload types that the prototype does not tell apart. -/
def Generator.Alike (k : Generator) (T S : CType B) : Prop :=
  (payloadKey D k T).compatible D (payloadKey D k S) = true

instance (k : Generator) (T S : CType B) : Decidable (k.Alike D T S) :=
  inferInstanceAs (Decidable (_ = _))

end Payloads

/-- What a generated function does to the program state before its handler runs. -/
def Generator.enter {σ : Type} : Generator → CtxHooks σ → σ → σ
  | .sumDispatch, hooks, w => hooks.lock w
  | _, _, w => w

/-- And after it. -/
def Generator.leave {σ : Type} : Generator → CtxHooks σ → σ → σ
  | .sumDispatch, hooks, w => hooks.unlock w
  | _, _, w => w

namespace SumInstance

variable {B : Type} (U : SumInstance B)

def generated : Generator → SwitchFn B
  | .sumMatch => U.matchFn
  | .sumMatchConst => U.matchConstFn
  | .sumDispatch => U.dispatchFn
  | .sumDestroy => U.destroyFn
  | .sumCopy => U.copyFn

/-- The handler parameter that a generator expands from one variant. -/
def paramOf : Generator → Variant B → HandlerParam B
  | .sumMatch => sumMatchParam U.NAME U.RET_TYPE
  | .sumMatchConst => sumMatchConstParam U.NAME U.RET_TYPE
  | .sumDispatch => sumDispatchParam U.NAME (U.VOID, U.CTX_TYPE)
  | .sumDestroy => sumDestroyParam U.NAME U.VOID
  | .sumCopy => sumCopyParam U.NAME ()

/-- And the switch case. -/
def caseOf : Generator → Variant B → SwitchCase
  | .sumMatch => sumMatchCase U.NAME U.RET_TYPE
  | .sumMatchConst => sumMatchConstCase U.NAME U.RET_TYPE
  | .sumDispatch => sumDispatchCase U.NAME (U.VOID, U.CTX_TYPE)
  | .sumDestroy => sumDestroyCase U.NAME U.VOID
  | .sumCopy => sumCopyCase U.NAME ()

/-- The name of the handler parameter of a tag. -/
def handlerName : Generator → Ident → Ident
  | .sumCopy, tag => U.NAME ++ "_copy_" ++ tag
  | _, tag => U.NAME ++ "_on_" ++ tag

/-- The payload types of the list, as C types. -/
def typeAt (typedefs : B → CType B) (i : Fin U.size) : CType B :=
  (U.variant i).type.denoted typedefs

/-- The texts given for `RET_TYPE` and `CTX_TYPE` are types, and so is `void`. -/
structure SpliceTypes (typedefs : B → CType B) where
  RET_TYPE : CType B
  VOID : CType B
  CTX_TYPE : CType B
  denotesRet : denote typedefs U.RET_TYPE = some RET_TYPE
  denotesVoid : denote typedefs U.VOID = some VOID
  denotesCtx : denote typedefs (U.CTX_TYPE ++ [.star]) = some (.pointer CTX_TYPE false)

section Handlers

variable {U} {typedefs : B → CType B} (texts : U.SpliceTypes typedefs) (D : Dialect B)

/-- The type of a handler for payloads of type `T`. -/
def SpliceTypes.handlerType : Generator → CType B → FnType B
  | .sumMatch, T =>
      { result := D.resultType texts.RET_TYPE
        params := [.pointer T false] }
  | .sumMatchConst, T =>
      { result := D.resultType texts.RET_TYPE
        params := [.pointer T.addConst false] }
  | .sumDispatch, T =>
      { result := D.resultType texts.VOID
        params := [.pointer T false, .pointer texts.CTX_TYPE false] }
  | .sumDestroy, T =>
      { result := D.resultType texts.VOID
        params := [.pointer T false] }
  | .sumCopy, T =>
      { result := D.resultType T
        params := [.pointer T.addConst false] }

/-- The right handlers in another order: position `i` gets the one for `s i`. -/
def SpliceTypes.permuted (k : Generator) (s : Equiv.Perm (Fin U.size)) : List (FnType B) :=
  List.ofFn fun i => texts.handlerType D k (U.typeAt typedefs (s i))

end Handlers

/-- `const TYPE *` is the parameter of a read-only handler for `TYPE` on every entry of the list.  Only
    `DEFINE_SUM_COPY` spells its parameter this way. -/
def ConstPlaced (typedefs : B → CType B) (k : Generator) : Prop :=
  k = .sumCopy → ∀ v ∈ U.VARIANTS, v.type.constPlacementAgrees typedefs = true

/-- The list with its variants reordered: position `i` now holds what stood at `s i`. -/
def reordered (s : Equiv.Perm (Fin U.size)) : VariantList B :=
  List.ofFn fun i => U.variant (s i)

theorem reordered_perm (s : Equiv.Perm (Fin U.size)) : (U.reordered s).Perm U.VARIANTS := by
  have whole : List.ofFn U.variant = U.VARIANTS := List.ofFn_getElem
  have moved := s.ofFn_comp_perm U.variant
  rw [whole] at moved
  exact moved

/-- The same instance over the reordered list. -/
def reorder (s : Equiv.Perm (Fin U.size)) : SumInstance B :=
  { U with
    VARIANTS := U.reordered s
    nonempty := by
      intro empty
      have lengths := (U.reordered_perm s).length_eq
      rw [empty] at lengths
      exact U.nonempty (List.length_eq_zero_iff.mp lengths.symm)
    tagsDistinct := ((U.reordered_perm s).map Variant.tag).nodup_iff.mpr U.tagsDistinct
    onParamsVisible := by
      intro v first w second
      exact U.onParamsVisible v ((U.reordered_perm s).mem_iff.mp first) w
        ((U.reordered_perm s).mem_iff.mp second)
    copyParamsVisible := by
      intro v first w second
      exact U.copyParamsVisible v ((U.reordered_perm s).mem_iff.mp first) w
        ((U.reordered_perm s).mem_iff.mp second) }

/-- Reordering the variants leaves the texts alone. -/
def SpliceTypes.reorder {U : SumInstance B} {typedefs : B → CType B} (texts : U.SpliceTypes typedefs)
    (s : Equiv.Perm (Fin U.size)) : (U.reorder s).SpliceTypes typedefs :=
  { RET_TYPE := texts.RET_TYPE
    VOID := texts.VOID
    CTX_TYPE := texts.CTX_TYPE
    denotesRet := texts.denotesRet
    denotesVoid := texts.denotesVoid
    denotesCtx := texts.denotesCtx }

section Promise

variable {U} [DecidableEq B] {M : TypeModel B} (texts : U.SpliceTypes M.typedefs) (D : Dialect B)

/-- Some wrong order of the right handlers is accepted with which the payload of the variant at `i` reaches
    the handler of the variant at `j`. -/
def SpliceTypes.Misroutes (k : Generator) (i j : Fin U.size) : Prop :=
  ∃ s : Equiv.Perm (Fin U.size), s ≠ Equiv.refl _ ∧ s i = j ∧
    (U.generated k).accepts M.typedefs D (texts.permuted D k s) ∧
    ∃ same : (U.payloadType M i).unqualified = (U.payloadType M j).unqualified,
      ∀ (σ : Type) (R : CType B → Type) (hooks : CtxHooks σ)
        (handlers : ∀ l, σ → U.Payload M l → σ × U.Payload M l × R (U.payloadType M l))
        (w : σ) (x : U.Payload M i),
        ∃ done r,
          (U.generated k).run U.decl hooks
              (List.ofFn fun l =>
                ({ type := U.payloadType M (s l), run := handlers (s l) } : Handler M σ R))
              w (U.encode M ⟨i, x⟩) = .ok (done, r) ∧
            done.calls = [((i : Nat), ⟨U.payloadType M i, x⟩)] ∧
            done.world = k.leave hooks
              (handlers j (k.enter hooks w) (cast (congrArg M.Val same) x)).1

/-- The prototype check as the comments of the header describe it: only literally the same payload types
    escape it. -/
structure OrderCheck (k : Generator) : Prop where
  /-- A call is accepted when it passes handlers for exactly the payload types of the list. -/
  calls : ∀ Ts : List (CType B),
    (U.generated k).accepts M.typedefs D (Ts.map (texts.handlerType D k)) ↔
      Ts = List.ofFn (U.typeAt M.typedefs)
  permutations : ∀ s : Equiv.Perm (Fin U.size),
    (U.generated k).accepts M.typedefs D (texts.permuted D k s) ↔
      ∀ i, U.typeAt M.typedefs (s i) = U.typeAt M.typedefs i
  distinct : Function.Injective (U.typeAt M.typedefs) → ∀ s : Equiv.Perm (Fin U.size),
    (U.generated k).accepts M.typedefs D (texts.permuted D k s) ↔ s = Equiv.refl _
  shared : ∀ i j, i ≠ j → U.typeAt M.typedefs i = U.typeAt M.typedefs j → texts.Misroutes D k i j
  /-- Inserting or removing a variant makes every accepted call site rejected. -/
  sizes : ∀ (before after : VariantList B) (v : Variant B) (smaller larger : SumInstance B),
    smaller.VARIANTS = before ++ after → larger.VARIANTS = before ++ v :: after → ∀ args,
      ((smaller.generated k).accepts M.typedefs D args →
        ¬(larger.generated k).accepts M.typedefs D args) ∧
      ((larger.generated k).accepts M.typedefs D args →
        ¬(smaller.generated k).accepts M.typedefs D args)
  reorderings : ∀ (s : Equiv.Perm (Fin U.size)) (args : List (FnType B)),
    (U.generated k).accepts M.typedefs D args →
      (((U.reorder s).generated k).accepts M.typedefs D args ↔
        ∀ i, U.typeAt M.typedefs (s i) = U.typeAt M.typedefs i)

end Promise

end SumInstance

end GenericSumType
