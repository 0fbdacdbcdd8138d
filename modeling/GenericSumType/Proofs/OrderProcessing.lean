/-
Module: GenericSumType.Proofs.OrderProcessing
Layer: Proofs
Purpose: Chained with `and_then`, the steps of an order run one after another until the first one that fails.
Imports: GenericSumType.Examples.OrderProcessing, GenericSumType.Library.ErrorChain,
  GenericSumType.Proofs.RequestConflation
Trusted boundary: none
Main exports: represent, Implements, andThen_represent, chain_represent, checkStock_implements,
  chain_stops_at_first_error
Open obligations: none
-/
import GenericSumType.Examples.OrderProcessing
import GenericSumType.Library.ErrorChain
import GenericSumType.Proofs.RequestConflation

namespace GenericSumType

namespace OrderProcessing

open CString SignedInt ErrorChain

variable {INT : IntType} {σ : Type}

section Represent

def okKind : Fin OrderResult.size := ⟨0, Nat.zero_lt_two⟩
def errKind : Fin OrderResult.size := ⟨1, Nat.one_lt_two⟩

/-- The object of a result. -/
def represent : Except (OrderError INT) (OrderId INT) → RawSum (model INT)
  | .ok o => OrderResult.encode (model INT) ⟨okKind, o⟩
  | .error e => OrderResult.encode (model INT) ⟨errKind, e⟩

theorem newOk_eq (o : OrderId INT) : newOk o = .ok (represent (.ok o)) :=
  OrderResult.callCtor_encode (model INT) okKind o

theorem newErr_eq (e : OrderError INT) : newErr e = .ok (represent (.error e)) :=
  OrderResult.callCtor_encode (model INT) errKind e

theorem represent_injective : Function.Injective (@represent INT) := by
  intro r r' same
  have tags := congrArg RawSum.tag same
  cases r with
  | ok o =>
      cases r' with
      | ok o' =>
          cases OrderResult.encode_injective (model INT) same
          rfl
      | error e => exact absurd tags (show (0 : Int) ≠ 1 by decide)
  | error e =>
      cases r' with
      | ok o => exact absurd tags (show (1 : Int) ≠ 0 by decide)
      | error e' =>
          cases OrderResult.encode_injective (model INT) same
          rfl

theorem tagIsOk_represent (r : Except (OrderError INT) (OrderId INT)) :
    tagIsOk (represent r) = .ok r.isOk := by
  have enumerator : OrderResult.decl.enumValue "OrderResult_ok" = some 0 := OrderResult.enumValue_tag okKind
  rw [tagIsOk, enumerator]
  cases r with
  | ok o => rfl
  | error e => rfl

theorem asOk_represent (o : OrderId INT) : asOk (represent (.ok o)) = .ok o := by
  have active : (represent (.ok o)).as.readMember "ok" = .ok ⟨.named .OrderId false, o⟩ :=
    OrderResult.readMember_encode (model INT) ⟨okKind, o⟩
  rw [asOk, active]
  rfl

/-- `OrderResult_unwrap_or` is the payload of an ok result. -/
theorem unwrapOr_represent (r : Except (OrderError INT) (OrderId INT)) (dflt : OrderId INT) :
    unwrapOr (represent r) dflt = .ok (r.toOption.getD dflt) := by
  rw [unwrapOr, tagIsOk_represent, ok_bind]
  cases r with
  | ok o => exact asOk_represent o
  | error e => rfl

/-- What the fold does with a result. -/
def foldResult : Except (OrderError INT) (OrderId INT) → Folded INT
  | .ok o => foldOk o
  | .error e => foldErr e

theorem orderResultFold_represent (printed : List Line) (r : Except (OrderError INT) (OrderId INT)) :
    orderResultFold printed (represent r) = .ok (printed ++ (foldResult r).1, (foldResult r).2) := by
  cases r with
  | ok o =>
      rw [orderResultFold, represent, OrderResult.run_matchConst]
      rfl
  | error e =>
      rw [orderResultFold, represent, OrderResult.run_matchConst]
      rfl

end Represent

section Chain

/-- The function calls no generated function wrongly, and `g` says what it does. -/
def Implements (f : StepFn INT σ) (g : Step (OrderError INT) σ (OrderId INT)) : Prop :=
  ∀ o w, f o w = .ok ((g o w).1, represent (g o w).2)

theorem andThen_represent {f : StepFn INT σ} {g : Step (OrderError INT) σ (OrderId INT)}
    (implemented : Implements f g) (s : σ × Except (OrderError INT) (OrderId INT)) :
    andThen s.1 (represent s.2) f = .ok ((next s g).1, represent (next s g).2) := by
  obtain ⟨w, r⟩ := s
  rw [andThen, tagIsOk_represent, ok_bind]
  cases r with
  | ok o =>
      simp only [Except.isOk, Except.toBool, if_true, asOk_represent, ok_bind]
      exact implemented o w
  | error e => rfl

/-- The chain runs the steps. -/
theorem chain_represent {fs : List (StepFn INT σ)} {gs : List (Step (OrderError INT) σ (OrderId INT))}
    (implemented : List.Forall₂ Implements fs gs) (s : σ × Except (OrderError INT) (OrderId INT)) :
    chain fs s.1 (represent s.2) = .ok ((run gs s).1, represent (run gs s).2) := by
  induction implemented generalizing s with
  | nil => rfl
  | @cons f g fs gs first rest ih =>
      rw [chain, List.foldlM_cons, andThen_represent first, ok_bind, run_cons]
      exact ih (next s g)

theorem chain_eq_iff {fs : List (StepFn INT σ)} {gs : List (Step (OrderError INT) σ (OrderId INT))}
    (implemented : List.Forall₂ Implements fs gs) {w w' : σ} {r r' : Except (OrderError INT) (OrderId INT)} :
    chain fs w (represent r) = .ok (w', represent r') ↔ run gs (w, r) = (w', r') := by
  rw [chain_represent implemented (w, r), Except.ok.injEq, Prod.mk.injEq, represent_injective.eq_iff,
    ← Prod.mk.injEq]

theorem Implements.eq_iff {f : StepFn INT σ} {g : Step (OrderError INT) σ (OrderId INT)}
    (implemented : Implements f g) {o : OrderId INT} {w w' : σ}
    {r : Except (OrderError INT) (OrderId INT)} :
    f o w = .ok (w', represent r) ↔ g o w = (w', r) := by
  rw [implemented o w, Except.ok.injEq, Prod.mk.injEq, represent_injective.eq_iff, ← Prod.mk.injEq]

/-- What `check_stock` does: it keeps the order or fails, and leaves the state alone. -/
def stockStep : Step (OrderError INT) σ (OrderId INT) := fun o w =>
  (w,
    if o.orderId.1.tmod 7 = 0 then .error { kind := ERR_INSUFFICIENT_STOCK, reason := "out of stock" }
    else .ok o)

theorem checkStock_implements : Implements (checkStock : StepFn INT σ) stockStep := by
  intro o w
  rw [checkStock, stockStep]
  split_ifs with soldOut
  · rw [newErr_eq, ok_bind]
  · rw [newOk_eq, ok_bind]

/-- What a list is related to is split where the list is. -/
theorem forall₂_split {α β : Type} {R : α → β → Prop} {xs : List α} {before after : List β} {y : β}
    (related : List.Forall₂ R xs (before ++ y :: after)) :
    ∃ before' x after', xs = before' ++ x :: after' ∧ List.Forall₂ R before' before ∧ R x y := by
  have rest := List.forall₂_drop_append _ _ _ related
  obtain ⟨x, after', here, -, dropped⟩ := List.forall₂_cons_right_iff.mp rest
  refine ⟨xs.take before.length, x, after', ?_, List.forall₂_take_append _ _ _ related, here⟩
  rw [← dropped, List.take_append_drop]

/-- A chain of steps always ends in a result, which `unwrap_or` and the fold read.  It ends in an error
    exactly when it began with it or one step returned it: the steps before succeeded on each other's
    payloads, and the state is the one that step left, since none after it is called. -/
theorem chain_stops_at_first_error {fs : List (StepFn INT σ)}
    {gs : List (Step (OrderError INT) σ (OrderId INT))} (implemented : List.Forall₂ Implements fs gs)
    (w : σ) (r : Except (OrderError INT) (OrderId INT)) :
    (∃ w' r', chain fs w (represent r) = .ok (w', represent r') ∧
        (∀ dflt, unwrapOr (represent r') dflt = .ok (r'.toOption.getD dflt)) ∧
        ∀ printed, orderResultFold printed (represent r') =
          .ok (printed ++ (foldResult r').1, (foldResult r').2)) ∧
      ∀ w' e, chain fs w (represent r) = .ok (w', represent (.error e)) ↔
        r = .error e ∧ w' = w ∨
          ∃ before f after w₁ o₁, fs = before ++ f :: after ∧
            chain before w (represent r) = .ok (w₁, represent (.ok o₁)) ∧
            f o₁ w₁ = .ok (w', represent (.error e)) := by
  refine ⟨⟨_, _, chain_represent implemented (w, r), unwrapOr_represent _, (orderResultFold_represent · _)⟩,
    fun w' e => ?_⟩
  rw [chain_eq_iff implemented, run_error_iff, Prod.mk.injEq, and_comm (a := w = w')]
  refine or_congr (and_congr_right' eq_comm) ⟨?_, ?_⟩
  · rintro ⟨before, g, after, w₁, o₁, rfl, ran, last⟩
    obtain ⟨before', f, after', rfl, ranBefore, here⟩ := forall₂_split implemented
    exact ⟨before', f, after', w₁, o₁, rfl, (chain_eq_iff ranBefore).mpr ran, here.eq_iff.mpr last⟩
  · rintro ⟨before, f, after, w₁, o₁, rfl, ran, last⟩
    obtain ⟨before', g, after', rfl, ranBefore, here⟩ := forall₂_split implemented.flip
    exact ⟨before', g, after', w₁, o₁, rfl, (chain_eq_iff ranBefore.flip).mp ran,
      (Implements.eq_iff here).mp last⟩

/-- Order 1001 is a multiple of seven: the first step fails and the second is not called. -/
theorem chain_stops_at_first_error_sold_out :
    let int : IntType := ⟨-32767, 32767, by decide, by decide⟩
    let order : OrderId int := { orderId := int.constant 1001 }
    let soldOut : OrderError int := { kind := ERR_INSUFFICIENT_STOCK, reason := "out of stock" }
    let steps : List (StepFn int Unit) := [checkStock, checkStock]
    ∃ before f after w₁ o₁, steps = before ++ f :: after ∧
      chain before () (represent (.ok order)) = .ok (w₁, represent (.ok o₁)) ∧
      f o₁ w₁ = .ok ((), represent (.error soldOut)) := by
  intro int order soldOut steps
  have implemented : List.Forall₂ Implements steps [stockStep, stockStep] :=
    .cons checkStock_implements (.cons checkStock_implements .nil)
  have failed := (chain_stops_at_first_error implemented () (.ok order)).2 () soldOut
  have ends : chain steps () (represent (.ok order)) = .ok ((), represent (.error soldOut)) :=
    (chain_eq_iff implemented).mpr rfl
  exact (failed.mp ends).resolve_left fun began => nomatch began.1

end Chain

end OrderProcessing

end GenericSumType
