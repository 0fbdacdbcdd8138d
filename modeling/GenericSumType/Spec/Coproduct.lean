/-
Module: GenericSumType.Spec.Coproduct
Layer: Spec
Purpose: What a generated sum type is for: a value of the n-ary coproduct of its payload types.  Programs
  of `Header.Program` are given a second meaning here, over coproduct values instead of tagged unions:
  construction is injection, a getter is projection, a dispatching call is case analysis.
Imports: GenericSumType.Header.Program
Trusted boundary: human-reviewed statement of purpose
Main exports: Coproduct, Coproduct.project, CoproductState, CoproductObs, coproductStep
Open obligations: none
-/
import GenericSumType.Header.Program

namespace GenericSumType

/-- The coproduct of the payload families: a position together with a payload of that position. -/
abbrev Coproduct {n : Nat} (P : Fin n → Type) : Type := (i : Fin n) × P i

namespace Coproduct

variable {n : Nat} {P : Fin n → Type}

/-- The payload at position `i`, when `i` is the active position. -/
def project (c : Coproduct P) (i : Fin n) : Option (P i) :=
  if active : c.1 = i then some (active ▸ c.2) else none

@[simp] theorem project_self (c : Coproduct P) : c.project c.1 = some c.2 := by
  simp [project]

theorem project_of_ne {c : Coproduct P} {i : Fin n} (other : c.1 ≠ i) : c.project i = none := by
  simp [project, other]

end Coproduct

/-- Variables holding coproduct values. -/
structure CoproductState {n : Nat} (P : Fin n → Type) (Var σ : Type) where
  vars : Var → Option (Coproduct P)
  world : σ

inductive CoproductObs {n : Nat} (P : Fin n → Type) (Ret : Type) where
  | quiet
  /-- projection: nothing, or the active payload -/
  | projected (p : Option (Coproduct P))
  /-- case analysis: the position of the one handler that ran, its payload, and its value -/
  | analysed (c : Coproduct P) (result : Option Ret)

section Step

variable {n : Nat} {P : Fin n → Type} {Var σ Ret : Type} [DecidableEq Var]

namespace CoproductState

def read (s : CoproductState P Var σ) (v : Var) : Except Fault (Coproduct P) :=
  match s.vars v with
  | some c => .ok c
  | none => .error .uninitialized

def write (s : CoproductState P Var σ) (v : Var) (c : Coproduct P) : CoproductState P Var σ :=
  { s with vars := Function.update s.vars v (some c) }

end CoproductState

/-- One operation on coproduct values.  The only failure is a read of a variable that was never
    constructed.  `zero` is the coproduct value that zero initialisation stands for. -/
def coproductStep (hooks : CtxHooks σ) (zero : Coproduct P) (s : CoproductState P Var σ) :
    Op P Var σ Ret → Except Fault (CoproductState P Var σ × CoproductObs P Ret)
  | .construct dst i x => .ok (s.write dst ⟨i, x⟩, .quiet)
  | .constructUnreachable dst => .ok (s.write dst zero, .quiet)
  | .assign dst src => do
      let c ← s.read src
      .ok (s.write dst c, .quiet)
  | .get v i | .getConst v i => do
      let c ← s.read v
      .ok (s, .projected ((c.project i).map (⟨i, ·⟩)))
  | .update v i block => do
      let c ← s.read v
      match c.project i with
      | none => .ok (s, .projected none)
      | some x =>
          let out := block s.world x
          .ok ({ s.write v ⟨i, out.2⟩ with world := out.1 }, .projected (some ⟨i, x⟩))
  | .callMatch v handlers => do
      let c ← s.read v
      let out := handlers c.1 s.world c.2
      .ok ({ s.write v ⟨c.1, out.2.1⟩ with world := out.1 }, .analysed c (some out.2.2))
  | .callMatchConst v handlers => do
      let c ← s.read v
      let out := handlers c.1 s.world c.2
      .ok ({ s with world := out.1 }, .analysed c (some out.2))
  | .callDispatch v handlers => do
      let c ← s.read v
      let out := handlers c.1 (hooks.lock s.world) c.2
      .ok ({ s.write v ⟨c.1, out.2⟩ with world := hooks.unlock out.1 }, .analysed c none)
  | .callDestroy v handlers => do
      let c ← s.read v
      let out := handlers c.1 s.world c.2
      .ok ({ s.write v ⟨c.1, out.2⟩ with world := out.1 }, .analysed c none)
  | .callCopy dst src handlers => do
      let c ← s.read src
      let out := handlers c.1 s.world c.2
      .ok ({ s.write dst ⟨c.1, out.2⟩ with world := out.1 }, .analysed c none)

section Calls

variable (hooks : CtxHooks σ) {zero : Coproduct P} {s : CoproductState P Var σ} {v : Var}
  {c : Coproduct P}

theorem coproductStep_callDestroy (held : s.vars v = some c)
    (handlers : ∀ i, σ → P i → σ × P i) :
    coproductStep hooks zero s (.callDestroy v handlers : Op P Var σ Ret) =
      .ok
        ({ vars := Function.update s.vars v (some ⟨c.1, (handlers c.1 s.world c.2).2⟩)
           world := (handlers c.1 s.world c.2).1 },
          .analysed c none) := by
  have read : s.read v = .ok c := by
    rw [CoproductState.read, held]
  rw [coproductStep, read]
  rfl

theorem coproductStep_callCopy {dst : Var} (held : s.vars v = some c)
    (handlers : ∀ i, σ → P i → σ × P i) :
    coproductStep hooks zero s (.callCopy dst v handlers : Op P Var σ Ret) =
      .ok
        ({ vars := Function.update s.vars dst (some ⟨c.1, (handlers c.1 s.world c.2).2⟩)
           world := (handlers c.1 s.world c.2).1 },
          .analysed c none) := by
  have read : s.read v = .ok c := by
    rw [CoproductState.read, held]
  rw [coproductStep, read]
  rfl

end Calls

end Step

namespace SumInstance

variable {B : Type} (U : SumInstance B) (M : TypeModel B)

/-- The position of the first variant. -/
def first : Fin U.size := ⟨0, List.length_pos_iff.mpr U.nonempty⟩

/-- The raw object that represents a coproduct value. -/
def encode (c : Coproduct (U.Payload M)) : RawSum M :=
  { tag := (c.1 : Nat)
    as :=
      { member := (U.variant c.1).tag
        content := ⟨U.payloadType M c.1, c.2⟩ } }

/-- The coproduct value of `{ 0 }`. -/
def zeroValue : Coproduct (U.Payload M) := ⟨U.first, M.zero _⟩

/-- How an abstract observation looks on raw objects. -/
def encodeObs {Ret : Type} : CoproductObs (U.Payload M) Ret → Obs M Ret
  | .quiet => .quiet
  | .projected p =>
      .pointer (p.map fun c => ((U.variant c.1).tag, ⟨U.payloadType M c.1, c.2⟩))
  | .analysed c result => .called [((c.1 : Nat), ⟨U.payloadType M c.1, c.2⟩)] result

/-- How an abstract state looks on raw objects. -/
def encodeState {Var σ : Type} (t : CoproductState (U.Payload M) Var σ) : ProgramState M Var σ :=
  { vars := fun v => (t.vars v).map (U.encode M)
    world := t.world }

end SumInstance

end GenericSumType
