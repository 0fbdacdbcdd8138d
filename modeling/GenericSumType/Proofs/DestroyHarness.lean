/-
Module: GenericSumType.Proofs.DestroyHarness
Layer: Proofs
Purpose: When functions that are made of the statements of the destroy harness are free of leaks and of
  double frees: the account decides it.  The three functions of the harness are instances.
Imports: GenericSumType.Spec.DestroyAccount, GenericSumType.Proofs.CoproductRefinement
Trusted boundary: none
Main exports: runFunction_keeps, clean_iff_each_destroyed_once, runFunction_of_account,
  safeCase_clean, leakedCase_leaks, doubleFreeCase_frees_twice
Open obligations: none
-/
import GenericSumType.Spec.DestroyAccount
import GenericSumType.Proofs.CoproductRefinement

namespace GenericSumType

namespace DestroyHarness

open BlockHeap (Memory Ledger Balanced)

variable {Var : Type} [DecidableEq Var]

theorem call_encode {t t' : Messages Var} {op : Op (Msg.Payload model) Var (Memory Nat) Unit}
    {b : CoproductObs (Msg.Payload model) Unit}
    (done : coproductStep .default (Msg.zeroValue model) t op = .ok (t', b)) :
    call (Msg.encodeState model t) op = .ok (Msg.encodeState model t') := by
  rw [call, SumInstance.step_encode .default done]
  rfl

/-! ### One statement -/

section Statements

variable {t : Messages Var} {a : Account Var}

omit [DecidableEq Var] in
theorem Keeps.read (keeps : Keeps t a) {v : Var} {b : Nat} (held : a.pointee v = some b) :
    t.vars v = some (textMessage (some b)) := by
  rw [keeps.vars, held]
  rfl

omit [DecidableEq Var] in
theorem Keeps.unread (keeps : Keeps t a) {v : Var} (nothing : a.pointee v = none) :
    t.vars v = none := by
  rw [keeps.vars, nothing]
  rfl

/-- Storing a message that points to a block of the account. -/
theorem vars_update (keeps : Keeps t a) (v : Var) (b : Nat) (u : Var) :
    Function.update t.vars v (some (textMessage (some b))) u =
      (Function.update a.pointee v (some b) u).map fun b => textMessage (some b) := by
  by_cases same : u = v
  · subst u
    rw [Function.update_self, Function.update_self]
    rfl
  · rw [Function.update_of_ne same, Function.update_of_ne same]
    exact keeps.vars u

theorem newText_keeps (keeps : Keeps t a) (v : Var) :
    ∃ t', call (Msg.encodeState model { t with world := (t.world.malloc hello).1 })
        (.construct v ⟨0, Nat.one_pos⟩ (t.world.malloc hello).2) = .ok (Msg.encodeState model t') ∧
      Keeps t' (a.allocate v) := by
  obtain ⟨balanced, block⟩ := keeps.balanced.malloc hello
  refine ⟨_, call_encode rfl, ?_, balanced⟩
  intro u
  rw [block]
  exact vars_update keeps v a.ledger.allocated u

theorem assign_keeps (keeps : Keeps t a) (dst : Var) {src : Var} {b : Nat}
    (held : a.pointee src = some b) :
    ∃ t', call (Msg.encodeState model t) (.assign dst src) = .ok (Msg.encodeState model t') ∧
      Keeps t' (a.share dst src) := by
  have read : t.read src = .ok (textMessage (some b)) := by
    rw [CoproductState.read, keeps.read held]
  have done : coproductStep .default (Msg.zeroValue model) t
      (.assign dst src : Op (Msg.Payload model) Var (Memory Nat) Unit) =
        .ok (t.write dst (textMessage (some b)), .quiet) := by
    rw [coproductStep, read]
    rfl
  refine ⟨_, call_encode done, ?_, keeps.balanced⟩
  intro u
  simp only [Account.share, held]
  exact vars_update keeps dst b u

theorem autoDestroy_keeps (keeps : Keeps t a) {v : Var} {b : Nat} (held : a.pointee v = some b) :
    ∃ t', call (Msg.encodeState model t) (.callDestroy v destroyHandlers) =
        .ok (Msg.encodeState model t') ∧
      Keeps t' (a.destroy held) := by
  have called := call_encode (coproductStep_callDestroy .default (keeps.read held) destroyHandlers)
  have balanced := keeps.balanced.free (a.known v b held)
  refine ⟨_, called, ?_, balanced⟩
  intro u
  have same : Function.update a.pointee v (some b) = a.pointee := by
    rw [← held]
    exact Function.update_eq_self v a.pointee
  have kept := vars_update keeps v b u
  rw [same] at kept
  exact kept

omit [DecidableEq Var] in
theorem read_uninitialized (keeps : Keeps t a) {v : Var} (nothing : a.pointee v = none) :
    (Msg.encodeState model t).read v = .error .uninitialized := by
  simp only [ProgramState.read, SumInstance.encodeState, keeps.unread nothing, Option.map_none]

theorem assign_uninitialized (keeps : Keeps t a) (dst : Var) {src : Var}
    (nothing : a.pointee src = none) :
    call (Msg.encodeState model t) (.assign dst src) = .error .uninitialized := by
  simp only [call, SumInstance.step, read_uninitialized keeps nothing]
  rfl

theorem autoDestroy_uninitialized (keeps : Keeps t a) {v : Var} (nothing : a.pointee v = none) :
    call (Msg.encodeState model t) (.callDestroy v destroyHandlers) = .error .uninitialized := by
  simp only [call, SumInstance.step, read_uninitialized keeps nothing]
  rfl

end Statements

/-! ### Whole functions -/

/-- A function either reads a variable that it did not construct, in the account as in the code, or comes
    to its end with memory as the account says. -/
theorem runFunction_keeps (program : List (HarnessStmt Var)) {t : Messages Var} {a : Account Var}
    (keeps : Keeps t a) :
    (a.run program = none ∧ runFunction (Msg.encodeState model t) program = .error .uninitialized) ∨
      ∃ a' t', a.run program = some a' ∧
        runFunction (Msg.encodeState model t) program = .ok (Msg.encodeState model t') ∧
        Keeps t' a' := by
  induction program generalizing t a with
  | nil => exact .inr ⟨a, t, rfl, rfl, keeps⟩
  | cons stmt rest ih =>
      cases stmt with
      | newText v succeeds =>
          cases succeeds with
          | false => exact .inr ⟨a, t, rfl, rfl, keeps⟩
          | true =>
              obtain ⟨t', called, keeps'⟩ := newText_keeps keeps v
              have step : runFunction (Msg.encodeState model t) (.newText v true :: rest) =
                  runFunction (Msg.encodeState model t') rest :=
                congrArg (fun called => called >>= (runFunction · rest)) called
              rw [step]
              exact ih keeps'
      | assign dst src =>
          cases held : a.pointee src with
          | none =>
              left
              simp only [Account.run, held, runFunction, assign_uninitialized keeps dst held]
              exact ⟨rfl, rfl⟩
          | some b =>
              obtain ⟨t', called, keeps'⟩ := assign_keeps keeps dst held
              simp only [Account.run, held, runFunction, called]
              exact ih keeps'
      | autoDestroy v =>
          cases held : a.pointee v with
          | none =>
              left
              simp only [Account.run_autoDestroy_none a held, runFunction,
                autoDestroy_uninitialized keeps held]
              exact ⟨trivial, rfl⟩
          | some b =>
              obtain ⟨t', called, keeps'⟩ := autoDestroy_keeps keeps held
              simp only [Account.run_autoDestroy a held, runFunction, called]
              exact ih keeps'

omit [DecidableEq Var] in
theorem keeps_entered :
    Keeps { vars := fun _ : Var => none, world := { blocks := ∅, next := 0, violations := [] } } .empty where
  vars _ := rfl
  balanced := .empty

/-- Any function made of the statements of the harness, however it shares its blocks by assignment.
    Unless it reads a variable that it did not construct, the live blocks at its end are those that were
    never destroyed, the double frees are all destructions of a block after the first, and it is clean
    exactly when every block was destroyed exactly once. -/
theorem clean_iff_each_destroyed_once (program : List (HarnessStmt Var)) :
    (Account.empty.run program = none ∧ runFunction entered program = .error .uninitialized) ∨
      ∃ (a : Account Var) (s : State Var), Account.empty.run program = some a ∧
        runFunction entered program = .ok s ∧
        (∀ b, b ∈ s.world.blocks ↔ b < a.ledger.allocated ∧ b ∉ a.ledger.freed) ∧
        s.world.violations = (BlockHeap.repeats a.ledger.freed).reverse.map .badFree ∧
        (s.world.violations = [] ∧ s.world.blocks = ∅ ↔
          a.ledger.freed.Perm (List.range a.ledger.allocated)) := by
  rcases runFunction_keeps program keeps_entered with failed | ⟨a, t, account, ran, keeps⟩
  · exact .inl failed
  · refine .inr ⟨a, _, account, ran, keeps.balanced.live_iff, keeps.balanced.violations, ?_⟩
    rw [Ledger.each_once_iff]
    exact and_congr keeps.balanced.clean_iff keeps.balanced.unleaked_iff

/-- A function that only reads variables that it constructed. -/
theorem runFunction_of_account (program : List (HarnessStmt Var)) {a : Account Var}
    (account : Account.empty.run program = some a) :
    ∃ s, runFunction entered program = .ok s ∧ (s.world.violations = [] ↔ a.ledger.freed.Nodup) ∧
      (s.world.blocks = ∅ ↔ ∀ b < a.ledger.allocated, b ∈ a.ledger.freed) := by
  rcases runFunction_keeps program keeps_entered with ⟨failed, _⟩ | ⟨a', t, account', ran, keeps⟩
  · cases account.symm.trans failed
  · obtain rfl := Option.some.inj (account.symm.trans account')
    exact ⟨_, ran, keeps.balanced.clean_iff, keeps.balanced.unleaked_iff⟩

/-- `safe_case` is clean. -/
theorem safeCase_clean (succeeds : Bool) :
    ∃ s, runFunction entered (safeCase succeeds) = .ok s ∧ s.world.violations = [] ∧
      s.world.blocks = ∅ := by
  cases succeeds with
  | true =>
      obtain ⟨s, ran, clean, unleaked⟩ := runFunction_of_account (safeCase true) rfl
      exact ⟨s, ran, clean.mpr (by decide), unleaked.mpr (by decide)⟩
  | false => exact ⟨entered, rfl, rfl, rfl⟩

/-- `leaked_case` leaks its block, if `malloc` returns one. -/
theorem leakedCase_leaks (succeeds : Bool) :
    ∃ s, runFunction entered (leakedCase succeeds) = .ok s ∧ s.world.violations = [] ∧
      (s.world.blocks = ∅ ↔ succeeds = false) := by
  cases succeeds with
  | true =>
      obtain ⟨s, ran, clean, unleaked⟩ := runFunction_of_account (leakedCase true) rfl
      exact ⟨s, ran, clean.mpr (by decide), unleaked.trans (by decide)⟩
  | false => exact ⟨entered, rfl, rfl, iff_of_true rfl rfl⟩

/-- `double_free_case` frees its block twice, if `malloc` returns one. -/
theorem doubleFreeCase_frees_twice (succeeds : Bool) :
    ∃ s, runFunction entered (doubleFreeCase succeeds) = .ok s ∧ s.world.blocks = ∅ ∧
      (s.world.violations = [] ↔ succeeds = false) := by
  cases succeeds with
  | true =>
      obtain ⟨s, ran, clean, unleaked⟩ := runFunction_of_account (doubleFreeCase true) rfl
      exact ⟨s, ran, unleaked.mpr (by decide), clean.trans (by decide)⟩
  | false => exact ⟨entered, rfl, rfl, iff_of_true rfl rfl⟩

end DestroyHarness

end GenericSumType
