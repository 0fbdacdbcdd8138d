/-
Module: GenericSumType.Library.FreeLedger
Layer: Library
Purpose: Bookkeeping of the blocks that were handed out and freed, for an allocator that never hands out a
  block twice.  Whatever was freed, and however often, the ledger tells which blocks are live and which
  frees were wrong: every free of a block after its first one.
Imports: GenericSumType.Library.BlockHeap, Mathlib.Data.List.Perm.Basic, Mathlib.Data.List.Nodup,
  Mathlib.Data.List.Range
Trusted boundary: human-reviewed semantics of `malloc` (C11 7.22.3.4) without reuse of blocks
Main exports: Memory.malloc, repeats, Ledger, Balanced, Balanced.malloc, Balanced.free,
  Balanced.clean_iff, Balanced.unleaked_iff, Ledger.each_once_iff
Open obligations: none
-/
import GenericSumType.Library.BlockHeap
import Mathlib.Data.List.Perm.Basic
import Mathlib.Data.List.Nodup
import Mathlib.Data.List.Range

namespace BlockHeap

/-- A new block with the given bytes; the next one will be another block. -/
def Memory.malloc (m : Memory Nat) (bytes : List UInt8) : Memory Nat × Option Nat :=
  let (m', p) := m.store bytes
  ({ m' with next := m.next + 1 }, p)

/-- The entries of a list, newest first, that occur among the older ones. -/
def repeats {α : Type*} [DecidableEq α] : List α → List α
  | [] => []
  | b :: older => if b ∈ older then b :: repeats older else repeats older

theorem repeats_eq_nil_iff {α : Type*} [DecidableEq α] {l : List α} : repeats l = [] ↔ l.Nodup := by
  induction l with
  | nil => simp [repeats]
  | cons b older ih =>
      by_cases again : b ∈ older
      · simp [repeats, again]
      · simp [repeats, again, ih]

/-- The blocks `0, ..., allocated - 1` were handed out, and those in `freed` were freed, newest first. -/
structure Ledger where
  allocated : Nat
  freed : List Nat
  handedOut : ∀ b ∈ freed, b < allocated

namespace Ledger

def empty : Ledger where
  allocated := 0
  freed := []
  handedOut := by simp

def allocate (l : Ledger) : Ledger where
  allocated := l.allocated + 1
  freed := l.freed
  handedOut b member := Nat.lt_succ_of_lt (l.handedOut b member)

def release (l : Ledger) (b : Nat) (inside : b < l.allocated) : Ledger where
  allocated := l.allocated
  freed := b :: l.freed
  handedOut := List.forall_mem_cons.mpr ⟨inside, l.handedOut⟩

/-- Every block was freed, and none twice. -/
theorem each_once_iff (l : Ledger) :
    l.freed.Perm (List.range l.allocated) ↔ l.freed.Nodup ∧ ∀ b < l.allocated, b ∈ l.freed := by
  constructor
  · intro perm
    refine ⟨perm.nodup_iff.mpr List.nodup_range, ?_⟩
    intro b inside
    exact perm.mem_iff.mpr (List.mem_range.mpr inside)
  · rintro ⟨distinct, all⟩
    apply (List.perm_ext_iff_of_nodup distinct List.nodup_range).mpr
    intro b
    constructor
    · intro member
      exact List.mem_range.mpr (l.handedOut b member)
    · intro inside
      exact all b (List.mem_range.mp inside)

end Ledger

/-- A memory that is as the ledger says. -/
structure Balanced (m : Memory Nat) (l : Ledger) : Prop where
  live_iff : ∀ b, b ∈ m.blocks ↔ b < l.allocated ∧ b ∉ l.freed
  violations : m.violations = (repeats l.freed).reverse.map .badFree
  next : m.next = l.allocated

namespace Balanced

variable {m : Memory Nat} {l : Ledger}

theorem empty : Balanced { blocks := ∅, next := 0, violations := [] } .empty where
  live_iff b := iff_of_false Finmap.notMem_empty (by simp [Ledger.empty])
  violations := rfl
  next := rfl

/-- A new block is the one that the ledger hands out next. -/
theorem malloc (balanced : Balanced m l) (bytes : List UInt8) :
    Balanced (m.malloc bytes).1 l.allocate ∧ (m.malloc bytes).2 = some l.allocated := by
  constructor
  · constructor
    · intro b
      have fresh : l.allocated ∉ l.freed := fun member => (l.handedOut _ member).false
      have live := balanced.live_iff b
      simp only [Memory.malloc, Memory.store, Finmap.mem_insert, balanced.next, live,
        Ledger.allocate]
      constructor
      · rintro (rfl | ⟨inside, kept⟩)
        · exact ⟨Nat.lt_succ_self _, fresh⟩
        · exact ⟨Nat.lt_succ_of_lt inside, kept⟩
      · rintro ⟨inside, kept⟩
        rcases Nat.lt_succ_iff_lt_or_eq.mp inside with earlier | rfl
        · exact .inr ⟨earlier, kept⟩
        · exact .inl rfl
    · exact balanced.violations
    · exact congrArg (· + 1) balanced.next
  · exact congrArg some balanced.next

/-- The first free of a block takes it away, every later one is a violation. -/
theorem free (balanced : Balanced m l) {b : Nat} (inside : b < l.allocated) :
    Balanced (m.free (some b)) (l.release b inside) := by
  have live := balanced.live_iff b
  by_cases again : b ∈ l.freed
  · have dead : b ∉ m.blocks := fun alive => (live.mp alive).2 again
    simp only [Memory.free, if_neg dead]
    constructor
    · intro c
      rw [balanced.live_iff c]
      simp only [Ledger.release, List.mem_cons, not_or]
      constructor
      · rintro ⟨early, kept⟩
        refine ⟨early, ?_, kept⟩
        rintro rfl
        exact kept again
      · rintro ⟨early, _, kept⟩
        exact ⟨early, kept⟩
    · simp [Ledger.release, repeats, again, balanced.violations]
    · exact balanced.next
  · have alive : b ∈ m.blocks := live.mpr ⟨inside, again⟩
    simp only [Memory.free, if_pos alive]
    constructor
    · intro c
      rw [Finmap.mem_erase, balanced.live_iff c]
      simp only [Ledger.release, List.mem_cons, not_or]
      constructor
      · rintro ⟨other, early, kept⟩
        exact ⟨early, other, kept⟩
      · rintro ⟨early, other, kept⟩
        exact ⟨other, early, kept⟩
    · simp [Ledger.release, repeats, again, balanced.violations]
    · exact balanced.next

/-- No free was wrong exactly when no block was freed twice. -/
theorem clean_iff (balanced : Balanced m l) : m.violations = [] ↔ l.freed.Nodup := by
  rw [balanced.violations, List.map_eq_nil_iff, List.reverse_eq_nil_iff, repeats_eq_nil_iff]

/-- Nothing leaks exactly when every block was freed. -/
theorem unleaked_iff (balanced : Balanced m l) :
    m.blocks = ∅ ↔ ∀ b < l.allocated, b ∈ l.freed := by
  constructor
  · intro nothing b inside
    by_contra kept
    have alive := (balanced.live_iff b).mpr ⟨inside, kept⟩
    rw [nothing] at alive
    exact Finmap.notMem_empty alive
  · intro all
    apply Finmap.ext_lookup
    intro b
    have dead : b ∉ m.blocks := by
      intro alive
      obtain ⟨inside, kept⟩ := (balanced.live_iff b).mp alive
      exact kept (all b inside)
    rw [Finmap.lookup_eq_none.mpr dead, Finmap.lookup_empty]

end Balanced

end BlockHeap
