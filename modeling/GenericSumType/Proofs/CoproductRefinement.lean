/-
Module: GenericSumType.Proofs.CoproductRefinement
Layer: Proofs
Purpose: The tagged unions that `generic_sum_type.h` generates refine the coproduct of their payload
  types.  One operation of the generated code on an encoded state is the coproduct operation on the
  state behind it (`step_simulates`); by the run rule of `Library.StepMachine` the same holds of whole
  programs (`runProgram_simulates`), so the tag always names the member stored last and no fault other
  than the read of a variable that was never constructed can occur.
Imports: GenericSumType.Proofs.Alignment
Trusted boundary: none
Main exports: Represents, step_simulates, runProgram_simulates, generated_code_refines_coproduct
Open obligations: none
-/
import GenericSumType.Proofs.Alignment

namespace GenericSumType

namespace SumInstance

variable {B : Type} (U : SumInstance B) (M : TypeModel B) {Var σ Ret : Type}

/-- A raw state represents a coproduct state when it is its encoding. -/
def Represents (s : ProgramState M Var σ) (t : CoproductState (U.Payload M) Var σ) : Prop :=
  s = U.encodeState M t

/-- A raw observation represents a coproduct observation when it is its encoding. -/
def RepresentsObs (a : Obs M Ret) (b : CoproductObs (U.Payload M) Ret) : Prop :=
  a = U.encodeObs M b

variable {U M}

theorem encodeState_write [DecidableEq Var] (t : CoproductState (U.Payload M) Var σ) (v : Var)
    (c : Coproduct (U.Payload M)) :
    (U.encodeState M t).write v (U.encode M c) = U.encodeState M (t.write v c) := by
  simp only [encodeState, ProgramState.write, CoproductState.write, ProgramState.mk.injEq, and_true]
  funext u
  by_cases same : u = v
  · subst u
    simp
  · simp [Function.update_of_ne same]

theorem encodeState_write_self [DecidableEq Var] {t : CoproductState (U.Payload M) Var σ} {v : Var}
    {c : Coproduct (U.Payload M)} (held : t.vars v = some c) :
    (U.encodeState M t).write v (U.encode M c) = U.encodeState M t := by
  rw [encodeState_write, CoproductState.write, ← held, Function.update_eq_self]

theorem represents_with_world {s : ProgramState M Var σ} {t : CoproductState (U.Payload M) Var σ}
    (same : s = U.encodeState M t) (w : σ) :
    U.Represents M { s with world := w } { t with world := w } := by
  rw [same]
  rfl

theorem read_none {t : CoproductState (U.Payload M) Var σ} {v : Var} (empty : t.vars v = none) :
    (U.encodeState M t).read v = .error .uninitialized ∧ t.read v = .error .uninitialized := by
  simp [ProgramState.read, CoproductState.read, encodeState, empty]

theorem read_some {t : CoproductState (U.Payload M) Var σ} {v : Var}
    {c : Coproduct (U.Payload M)} (held : t.vars v = some c) :
    (U.encodeState M t).read v = .ok (U.encode M c) ∧ t.read v = .ok c := by
  simp [ProgramState.read, CoproductState.read, encodeState, held]

/-- Looking through a getter sees the projection of the coproduct value. -/
theorem look_encode {t : CoproductState (U.Payload M) Var σ} {v : Var}
    {c : Coproduct (U.Payload M)} (held : t.vars v = some c) (i : Fin U.size)
    {getters : List (Getter B)} {fnName : Ident}
    (got : U.decl.callGetter getters fnName (U.encode M c) =
      .ok (if c.1 = i then some (U.variant i).tag else none)) :
    U.look M getters fnName (U.encodeState M t) v =
      .ok ((c.project i).map fun x => ((U.variant i).tag, ⟨U.payloadType M i, x⟩)) := by
  simp only [look, (read_some held).1, ok_bind, got]
  by_cases active : c.1 = i
  · subst i
    simp only [if_true, U.readMember_encode M c, ok_bind, Coproduct.project_self, Option.map_some]
  · simp only [active, if_false, Coproduct.project_of_ne active, Option.map_none]

/-- Code that starts by reading a variable agrees with its coproduct meaning as soon as it does so on
    every value the variable can hold; a variable that was never constructed fails on both sides. -/
theorem agree_of_read {k : RawSum M → Except Fault (ProgramState M Var σ × Obs M Ret)}
    {k' : Coproduct (U.Payload M) →
      Except Fault (CoproductState (U.Payload M) Var σ × CoproductObs (U.Payload M) Ret)}
    (t : CoproductState (U.Payload M) Var σ) (v : Var)
    (onValue : ∀ c, t.vars v = some c →
      StepMachine.Agree (U.Represents M) (U.RepresentsObs M) (k (U.encode M c)) (k' c)) :
    StepMachine.Agree (U.Represents M) (U.RepresentsObs M) ((U.encodeState M t).read v >>= k)
      (t.read v >>= k') := by
  cases held : t.vars v with
  | none =>
      rw [(read_none held).1, (read_none held).2]
      exact .error _
  | some c =>
      rw [(read_some held).1, (read_some held).2]
      exact onValue c held

/-- The same for code that starts by looking through a getter of the variable. -/
theorem agree_of_look [DecidableEq B] {i : Fin U.size} {getters : List (Getter B)} {fnName : Ident}
    {k : Option (Ident × M.AnyPayload) → Except Fault (ProgramState M Var σ × Obs M Ret)}
    {k' : Coproduct (U.Payload M) →
      Except Fault (CoproductState (U.Payload M) Var σ × CoproductObs (U.Payload M) Ret)}
    (t : CoproductState (U.Payload M) Var σ) (v : Var)
    (got : ∀ c, U.decl.callGetter getters fnName (U.encode M c) =
      .ok (if c.1 = i then some (U.variant i).tag else none))
    (onValue : ∀ c, t.vars v = some c →
      StepMachine.Agree (U.Represents M) (U.RepresentsObs M)
        (k ((c.project i).map fun x => ((U.variant i).tag, ⟨U.payloadType M i, x⟩))) (k' c)) :
    StepMachine.Agree (U.Represents M) (U.RepresentsObs M)
      (U.look M getters fnName (U.encodeState M t) v >>= k) (t.read v >>= k') := by
  cases held : t.vars v with
  | none =>
      rw [look, (read_none held).1, (read_none held).2]
      exact .error _
  | some c =>
      rw [look_encode held i (got c), (read_some held).2]
      exact onValue c held

variable [DecidableEq B] [DecidableEq Var] (hooks : CtxHooks σ)

/-- One operation of the generated code is the coproduct operation. -/
theorem step_simulates (s : ProgramState M Var σ) (t : CoproductState (U.Payload M) Var σ)
    (op : Op (U.Payload M) Var σ Ret) (represents : U.Represents M s t) :
    StepMachine.Agree (U.Represents M) (U.RepresentsObs M) (U.step M hooks s op)
      (coproductStep hooks (U.zeroValue M) t op) := by
  rw [represents]
  cases op with
  | construct dst i x =>
      simp only [step, coproductStep, U.callCtor_encode M i x, ok_bind]
      exact .ok (encodeState_write t dst ⟨i, x⟩) rfl
  | constructUnreachable dst =>
      simp only [step, coproductStep, U.zeroInit_encode M, ok_bind]
      exact .ok (encodeState_write t dst (U.zeroValue M)) rfl
  | assign dst src =>
      apply agree_of_read t src
      intro c _
      exact .ok (encodeState_write t dst c) rfl
  | get v i =>
      apply agree_of_look t v (U.callGetter_encode M i)
      intro c _
      exact .ok rfl (by simp [RepresentsObs, encodeObs, Function.comp_def])
  | getConst v i =>
      apply agree_of_look t v (U.callGetterConst_encode M i)
      intro c _
      exact .ok rfl (by simp [RepresentsObs, encodeObs, Function.comp_def])
  | update v i block =>
      apply agree_of_look t v (U.callGetter_encode M i)
      intro c held
      by_cases active : c.1 = i
      · subst i
        simp only [Coproduct.project_self, Option.map_some, (read_some held).1, Handler.apply,
          dif_pos, cast_eq, ok_bind, U.writeMember_tag M]
        exact .ok (represents_with_world
          (encodeState_write t v ⟨c.1, (block t.world c.2).2⟩) _) rfl
      · simp only [Coproduct.project_of_ne active, Option.map_none]
        exact .ok rfl rfl
  | callMatch v handlers =>
      apply agree_of_read t v
      intro c _
      simp only [U.run_match (R := fun _ => Ret) hooks handlers, ok_bind]
      exact .ok (represents_with_world
        (encodeState_write t v ⟨c.1, (handlers c.1 t.world c.2).2.1⟩) _) rfl
  | callMatchConst v handlers =>
      apply agree_of_read t v
      intro c held
      simp only [U.run_matchConst (R := fun _ => Ret) hooks, ok_bind]
      exact .ok (represents_with_world (encodeState_write_self held) _) rfl
  | callDispatch v handlers =>
      apply agree_of_read t v
      intro c _
      simp only [U.run_dispatch (R := fun _ => Unit) hooks, ok_bind]
      exact .ok (represents_with_world
        (encodeState_write t v ⟨c.1, (handlers c.1 (hooks.lock t.world) c.2).2⟩) _) rfl
  | callDestroy v handlers =>
      apply agree_of_read t v
      intro c _
      simp only [U.run_destroy (R := fun _ => Unit) hooks, ok_bind]
      exact .ok (represents_with_world
        (encodeState_write t v ⟨c.1, (handlers c.1 t.world c.2).2⟩) _) rfl
  | callCopy dst src handlers =>
      apply agree_of_read t src
      intro c _
      simp only [U.run_copy (R := fun T => M.Payload T) hooks, ok_bind, U.toSum_encode c.1]
      exact .ok (represents_with_world
        (encodeState_write t dst ⟨c.1, (handlers c.1 t.world c.2).2⟩) _) rfl

/-- An operation that succeeds on coproduct values succeeds on their encodings. -/
theorem step_encode {t t' : CoproductState (U.Payload M) Var σ} {op : Op (U.Payload M) Var σ Ret}
    {b : CoproductObs (U.Payload M) Ret}
    (done : coproductStep hooks (U.zeroValue M) t op = .ok (t', b)) :
    U.step M hooks (U.encodeState M t) op = .ok (U.encodeState M t', U.encodeObs M b) := by
  have agree := step_simulates hooks (U.encodeState M t) t op rfl
  rw [done] at agree
  generalize U.step M hooks (U.encodeState M t) op = concrete at agree ⊢
  cases agree with
  | ok states outputs =>
      rw [states, outputs]

/-- Whole programs agree with their coproduct meaning, observation by observation. -/
theorem runProgram_simulates (t : CoproductState (U.Payload M) Var σ)
    (program : List (Op (U.Payload M) Var σ Ret)) :
    StepMachine.Agree (U.Represents M) (List.Forall₂ (U.RepresentsObs M))
      (U.runProgram M hooks (U.encodeState M t) program)
      (StepMachine.run (coproductStep hooks (U.zeroValue M)) t program) :=
  StepMachine.run_agree (fun s t op => step_simulates hooks s t op) rfl program

/-- A read is the only operation on coproduct values that can fail. -/
theorem coproductStep_error {n : Nat} {P : Fin n → Type} {zero : Coproduct P}
    {t : CoproductState P Var σ} {op : Op P Var σ Ret} {e : Fault}
    (failed : coproductStep hooks zero t op = .error e) : e = .uninitialized := by
  have readFails : ∀ {v : Var} {k : Coproduct P →
      Except Fault (CoproductState P Var σ × CoproductObs P Ret)},
      (∀ c e, k c ≠ .error e) → (t.read v >>= k) = .error e → e = .uninitialized := by
    intro v k total failed
    unfold CoproductState.read at failed
    cases held : t.vars v with
    | none =>
        rw [held] at failed
        exact (Except.error.inj failed).symm
    | some c =>
        rw [held] at failed
        exact absurd failed (total c e)
  cases op with
  | construct dst i x => cases failed
  | constructUnreachable dst => cases failed
  | update v i block =>
      refine readFails ?_ failed
      intro c e
      cases c.project i <;> simp
  | _ => exact readFails (by simp) failed

theorem coproductRun_error {n : Nat} {P : Fin n → Type} {zero : Coproduct P}
    {t : CoproductState P Var σ} {program : List (Op P Var σ Ret)} {e : Fault}
    (failed : StepMachine.run (coproductStep hooks zero) t program = .error e) :
    e = .uninitialized := by
  obtain ⟨t', op, stepFailed⟩ := StepMachine.run_error failed
  exact coproductStep_error hooks stepFailed

/-- What it means for a raw object to hold the coproduct value `c`: its tag is the enumerator of the
    active variant, the union member stored last is the member of that variant and holds its payload,
    and a getter returns a pointer exactly for that variant. -/
structure Holds (x : RawSum M) (c : Coproduct (U.Payload M)) : Prop where
  tag : x.tag = ((c.1 : Nat) : Int)
  enumerator : U.decl.enumValue (U.NAME ++ "_" ++ (U.variant c.1).tag) = some x.tag
  member : x.as.member = (U.variant c.1).tag
  content : x.as.content = ⟨U.payloadType M c.1, c.2⟩
  getter : ∀ i, U.decl.callGetter U.decl.getters (U.NAME ++ "_get_" ++ (U.variant i).tag) x =
    .ok (if c.1 = i then some x.as.member else none)
  getterConst : ∀ i, U.decl.callGetter U.decl.constGetters
    (U.NAME ++ "_get_" ++ (U.variant i).tag ++ "_const") x =
      .ok (if c.1 = i then some x.as.member else none)

omit [DecidableEq B] in
theorem holds_encode (c : Coproduct (U.Payload M)) : Holds (U.encode M c) c where
  tag := rfl
  enumerator := U.enumValue_tag c.1
  member := rfl
  content := rfl
  getter i := by
    rw [U.callGetter_encode M i c]
    by_cases active : c.1 = i
    · subst i
      rfl
    · simp [active]
  getterConst i := by
    rw [U.callGetterConst_encode M i c]
    by_cases active : c.1 = i
    · subst i
      rfl
    · simp [active]

/-- Every program of generated functions, struct assignments and accesses through getter pointers
    computes on raw objects what its coproduct meaning computes on coproduct values: either both stop
    at the read of a variable that was never constructed, or both succeed, the raw observations are the
    abstract ones (in particular each call makes exactly the handler call of its case analysis), and
    every constructed variable holds the coproduct value behind it. -/
theorem generated_code_refines_coproduct (t : CoproductState (U.Payload M) Var σ)
    (program : List (Op (U.Payload M) Var σ Ret)) :
    (U.runProgram M hooks (U.encodeState M t) program = .error .uninitialized ∧
      StepMachine.run (coproductStep hooks (U.zeroValue M)) t program = .error .uninitialized) ∨
    ∃ s t' observed abstract,
      U.runProgram M hooks (U.encodeState M t) program = .ok (s, observed) ∧
      StepMachine.run (coproductStep hooks (U.zeroValue M)) t program = .ok (t', abstract) ∧
      observed = abstract.map (U.encodeObs M) ∧ s.world = t'.world ∧
      ∀ v, (s.vars v = none ∧ t'.vars v = none) ∨
        ∃ x c, s.vars v = some x ∧ t'.vars v = some c ∧ Holds x c := by
  have agree := runProgram_simulates hooks t program
  generalize concrete : U.runProgram M hooks (U.encodeState M t) program = left at agree ⊢
  generalize meaning : StepMachine.run (coproductStep hooks (U.zeroValue M)) t program = right
    at agree ⊢
  cases agree with
  | error e =>
      have only := coproductRun_error hooks meaning
      subst only
      exact Or.inl ⟨rfl, rfl⟩
  | @ok s t' observed abstract states outputs =>
      refine Or.inr ⟨s, t', observed, abstract, rfl, rfl, ?_, ?_, ?_⟩
      · have pointwise : List.Forall₂ Eq observed (abstract.map (U.encodeObs M)) := by
          rw [List.forall₂_map_right_iff]
          exact outputs
        exact List.forall₂_eq_eq_eq ▸ pointwise
      · rw [states]
        rfl
      · intro v
        rw [states]
        cases held : t'.vars v with
        | none => exact Or.inl ⟨by simp [encodeState, held], rfl⟩
        | some c =>
            exact Or.inr ⟨U.encode M c, c, by simp [encodeState, held], rfl, holds_encode c⟩

end SumInstance

end GenericSumType
