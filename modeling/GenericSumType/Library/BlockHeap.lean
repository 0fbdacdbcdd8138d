/-
Module: GenericSumType.Library.BlockHeap
Layer: Library
Purpose: A heap of blocks with the C functions that hand out, read and free strings, and exclusive
  ownership of its blocks.  A free or a read of a block that is not live is recorded as a violation and
  has no other effect.  `Exclusive` says that the live blocks are exactly the owned ones and that no
  block has two owners; acquiring a fresh block and releasing an owned one keep it.
Imports: GenericSumType.Library.CString, Mathlib.Data.Finmap, Mathlib.Logic.Function.Basic
Trusted boundary: human-reviewed semantics of `free` and `strdup` (C11 7.22.3.3, POSIX `strdup`)
Main exports: CStr, Memory, Memory.free, Memory.strdup, Exclusive, Exclusive.acquire,
  Exclusive.release
Open obligations: none
-/
import GenericSumType.Library.CString
import Mathlib.Data.Finmap
import Mathlib.Logic.Function.Basic

namespace BlockHeap

/-- A C string without its terminator. -/
structure CStr where
  bytes : List UInt8
  noNul : 0 ∉ bytes

/-- The bytes that a string occupies. -/
def CStr.stored (s : CStr) : List UInt8 := s.bytes ++ [0]

inductive Violation (Block : Type) where
  /-- `free` of a block that is not live -/
  | badFree (b : Block)
  /-- a read through a pointer to a block that is not live -/
  | deadRead (b : Block)
  /-- a read through a null pointer -/
  | nullRead
  /-- a string that is not terminated inside its block -/
  | unterminated (b : Block)
deriving DecidableEq, Repr

/-- The live blocks with their bytes, the block that the allocator hands out next, and what has gone
    wrong. -/
structure Memory (Block : Type) where
  blocks : Finmap fun _ : Block => List UInt8
  next : Block
  violations : List (Violation Block)

variable {Block : Type} [DecidableEq Block]

namespace Memory

/-- `free(p)` -/
def free (m : Memory Block) : Option Block → Memory Block
  | none => m
  | some b =>
      if b ∈ m.blocks then { m with blocks := m.blocks.erase b }
      else { m with violations := m.violations ++ [.badFree b] }

/-- The string at `p`. -/
def loadString (m : Memory Block) : Option Block → Memory Block × List UInt8
  | none => ({ m with violations := m.violations ++ [.nullRead] }, [])
  | some b =>
      match m.blocks.lookup b with
      | none => ({ m with violations := m.violations ++ [.deadRead b] }, [])
      | some bytes =>
          if 0 ∈ bytes then (m, bytes.takeWhile fun c => c ≠ 0)
          else ({ m with violations := m.violations ++ [.unterminated b] }, bytes)

/-- A new block with the given bytes. -/
def store (m : Memory Block) (bytes : List UInt8) : Memory Block × Option Block :=
  ({ m with blocks := m.blocks.insert m.next bytes }, some m.next)

/-- `strdup(p)` -/
def strdup (m : Memory Block) (p : Option Block) : Memory Block × Option Block :=
  let (m, bytes) := m.loadString p
  m.store (bytes ++ [0])

theorem free_live {m : Memory Block} {b : Block} (live : b ∈ m.blocks) :
    m.free (some b) = { m with blocks := m.blocks.erase b } := by
  simp only [free, if_pos live]

theorem takeWhile_stored (s : CStr) : s.stored.takeWhile (fun c => c ≠ 0) = s.bytes :=
  @CString.text_of_append_zero s.bytes [] s.noNul

theorem loadString_stored {m : Memory Block} {b : Block} {s : CStr}
    (stored : m.blocks.lookup b = some s.stored) : m.loadString (some b) = (m, s.bytes) := by
  have terminated : 0 ∈ s.stored := List.mem_append_right _ List.mem_cons_self
  simp only [loadString, stored, if_pos terminated, takeWhile_stored]

/-- `strdup` of a stored string stores it once more. -/
theorem strdup_stored {m : Memory Block} {b : Block} {s : CStr}
    (stored : m.blocks.lookup b = some s.stored) :
    m.strdup (some b) = ({ m with blocks := m.blocks.insert m.next s.stored }, some m.next) := by
  simp only [strdup, loadString_stored stored]
  rfl

end Memory

/-! ### Ownership -/

section Ownership

variable {Var α : Type} [DecidableEq Var]

/-- The live blocks are the owned ones, and nothing is owned twice. -/
structure Exclusive (owns : Var → Option Block) (blocks : Finmap fun _ : Block => α) : Prop where
  live_iff : ∀ b, b ∈ blocks ↔ ∃ v, owns v = some b
  unshared : ∀ {u v b}, owns u = some b → owns v = some b → u = v

omit [DecidableEq Var] [DecidableEq Block] in
theorem Exclusive.empty {owns : Var → Option Block}
    (nothing : ∀ v, owns v = none) : Exclusive owns (∅ : Finmap fun _ : Block => α) where
  live_iff b := by
    constructor
    · intro live
      exact absurd live Finmap.notMem_empty
    · rintro ⟨v, owned⟩
      rw [nothing v] at owned
      cases owned
  unshared := by
    intro u v b owned _
    rw [nothing u] at owned
    cases owned

omit [DecidableEq Var] [DecidableEq Block] in
theorem Exclusive.live {owns : Var → Option Block} {blocks : Finmap fun _ : Block => α}
    (exclusive : Exclusive owns blocks) {v : Var} {b : Block} (owned : owns v = some b) :
    b ∈ blocks :=
  (exclusive.live_iff b).mpr ⟨v, owned⟩

/-- A variable that owns nothing may take a fresh block. -/
theorem Exclusive.acquire {owns : Var → Option Block} {blocks : Finmap fun _ : Block => α}
    (exclusive : Exclusive owns blocks) {v : Var} {b : Block} (nothing : owns v = none)
    (fresh : b ∉ blocks) (a : α) :
    Exclusive (Function.update owns v (some b)) (blocks.insert b a) := by
  have unowned : ∀ u, owns u ≠ some b := by
    intro u owned
    exact fresh (exclusive.live owned)
  constructor
  · intro c
    rw [Finmap.mem_insert, exclusive.live_iff]
    constructor
    · rintro (rfl | ⟨u, owned⟩)
      · exact ⟨v, Function.update_self v _ owns⟩
      · refine ⟨u, ?_⟩
        rw [Function.update_of_ne ?_, owned]
        rintro rfl
        rw [nothing] at owned
        cases owned
    · rintro ⟨u, owned⟩
      by_cases same : u = v
      · subst u
        rw [Function.update_self, Option.some.injEq] at owned
        exact Or.inl owned.symm
      · rw [Function.update_of_ne same] at owned
        exact Or.inr ⟨u, owned⟩
  · intro u w c first second
    by_cases left : u = v
    · by_cases right : w = v
      · exact left.trans right.symm
      · subst u
        rw [Function.update_self, Option.some.injEq] at first
        rw [Function.update_of_ne right, ← first] at second
        exact absurd second (unowned w)
    · by_cases right : w = v
      · subst w
        rw [Function.update_self, Option.some.injEq] at second
        rw [Function.update_of_ne left, ← second] at first
        exact absurd first (unowned u)
      · rw [Function.update_of_ne left] at first
        rw [Function.update_of_ne right] at second
        exact exclusive.unshared first second

/-- An owner may give its block up. -/
theorem Exclusive.release {owns : Var → Option Block} {blocks : Finmap fun _ : Block => α}
    (exclusive : Exclusive owns blocks) {v : Var} {b : Block} (owned : owns v = some b) :
    Exclusive (Function.update owns v none) (blocks.erase b) := by
  constructor
  · intro c
    rw [Finmap.mem_erase, exclusive.live_iff]
    constructor
    · rintro ⟨other, u, holds⟩
      refine ⟨u, ?_⟩
      rw [Function.update_of_ne ?_, holds]
      rintro rfl
      rw [owned, Option.some.injEq] at holds
      exact other holds.symm
    · rintro ⟨u, holds⟩
      by_cases same : u = v
      · subst u
        rw [Function.update_self] at holds
        cases holds
      · rw [Function.update_of_ne same] at holds
        refine ⟨?_, u, holds⟩
        rintro rfl
        exact same (exclusive.unshared holds owned)
  · intro u w c first second
    by_cases left : u = v
    · subst u
      rw [Function.update_self] at first
      cases first
    · by_cases right : w = v
      · subst w
        rw [Function.update_self] at second
        cases second
      · rw [Function.update_of_ne left] at first
        rw [Function.update_of_ne right] at second
        exact exclusive.unshared first second

end Ownership

end BlockHeap
