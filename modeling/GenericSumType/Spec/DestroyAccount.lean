/-
Module: GenericSumType.Spec.DestroyAccount
Layer: Spec
Purpose: What functions made of the statements of the destroy harness do to their blocks: an account of
  which variable points to which block, and of the blocks that were handed out and destroyed.  Assignment
  shares a block, and destroying leaves the pointer behind.
Imports: GenericSumType.Examples.DestroyHarness, GenericSumType.Spec.Coproduct
Trusted boundary: human-reviewed statement of purpose
Main exports: Account, Account.run, Messages, Keeps
Open obligations: none
-/
import GenericSumType.Examples.DestroyHarness
import GenericSumType.Spec.Coproduct

namespace GenericSumType

namespace DestroyHarness

open BlockHeap (Memory Ledger Balanced)

variable {Var : Type} [DecidableEq Var]

/-- The block that each constructed variable points to, and the blocks handed out and destroyed. -/
structure Account (Var : Type) where
  pointee : Var → Option Nat
  ledger : Ledger
  known : ∀ v b, pointee v = some b → b < ledger.allocated

namespace Account

omit [DecidableEq Var] in
def empty : Account Var where
  pointee _ := none
  ledger := .empty
  known _ _ held := nomatch held

/-- A new block for `v`. -/
def allocate (a : Account Var) (v : Var) : Account Var where
  pointee := Function.update a.pointee v (some a.ledger.allocated)
  ledger := a.ledger.allocate
  known u b held := by
    by_cases same : u = v
    · subst u
      rw [Function.update_self] at held
      obtain rfl := Option.some.inj held
      exact Nat.lt_succ_self _
    · rw [Function.update_of_ne same] at held
      exact Nat.lt_succ_of_lt (a.known u b held)

/-- `dst` points to the block of `src` from now on. -/
def share (a : Account Var) (dst src : Var) : Account Var where
  pointee := Function.update a.pointee dst (a.pointee src)
  ledger := a.ledger
  known u b held := by
    by_cases same : u = dst
    · subst u
      rw [Function.update_self] at held
      exact a.known src b held
    · rw [Function.update_of_ne same] at held
      exact a.known u b held

omit [DecidableEq Var] in
/-- The block of `v` is destroyed; `v` keeps pointing to it. -/
def destroy (a : Account Var) {v : Var} {b : Nat} (held : a.pointee v = some b) : Account Var where
  pointee := a.pointee
  ledger := a.ledger.release b (a.known v b held)
  known := a.known

/-- What a function does to the account; nothing when it reads a variable that it did not construct. -/
def run (a : Account Var) : List (HarnessStmt Var) → Option (Account Var)
  | [] => some a
  | .newText _ false :: _ => some a
  | .newText v true :: rest => (a.allocate v).run rest
  | .assign dst src :: rest => if (a.pointee src).isSome then (a.share dst src).run rest else none
  | .autoDestroy v :: rest =>
      match held : a.pointee v with
      | none => none
      | some _ => (a.destroy held).run rest

theorem run_autoDestroy (a : Account Var) {v : Var} {b : Nat} (held : a.pointee v = some b)
    (rest : List (HarnessStmt Var)) :
    a.run (.autoDestroy v :: rest) = (a.destroy held).run rest := by
  rw [run]
  split
  · rename_i nothing
    rw [held] at nothing
    cases nothing
  · rename_i c found
    obtain rfl := Option.some.inj (held.symm.trans found)
    rfl

theorem run_autoDestroy_none (a : Account Var) {v : Var} (nothing : a.pointee v = none)
    (rest : List (HarnessStmt Var)) : a.run (.autoDestroy v :: rest) = none := by
  rw [run]
  split
  · rfl
  · rename_i c found
    rw [nothing] at found
    cases found

end Account

abbrev Messages (Var : Type) := CoproductState (Msg.Payload model) Var (Memory Nat)

/-- `Msg_new_text(p)` -/
def textMessage (p : Option Nat) : Coproduct (Msg.Payload model) := ⟨⟨0, Nat.one_pos⟩, p⟩

/-- Memory and variables are as the account says. -/
structure Keeps (t : Messages Var) (a : Account Var) : Prop where
  vars : ∀ v, t.vars v = (a.pointee v).map fun b => textMessage (some b)
  balanced : Balanced t.world a.ledger

end DestroyHarness

end GenericSumType
