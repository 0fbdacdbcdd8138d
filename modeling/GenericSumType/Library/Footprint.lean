/-
Module: GenericSumType.Library.Footprint
Layer: Library
Purpose: Operations on a state that is a family of cells.  The footprint of an operation is the cells it
  reads and the cells it writes; operations whose footprints are apart commute, and an operation that
  does not read what it writes is idempotent.
Imports: Mathlib.Data.Set.Basic
Trusted boundary: none
Main exports: Within, Within.commute, Within.idempotent
Open obligations: none
-/
import Mathlib.Data.Set.Basic

namespace Footprint

variable {σ ι : Type*} {V : ι → Type*} {cell : σ → ∀ i, V i}

/-- `f` leaves every cell outside of `writes` as it is, and what it stores in `writes` depends on the
    cells of `reads` only. -/
structure Within (cell : σ → ∀ i, V i) (reads writes : Set ι) (f : σ → σ) : Prop where
  unchanged : ∀ s, ∀ i ∉ writes, cell (f s) i = cell s i
  determined : ∀ s t, (∀ i ∈ reads, cell s i = cell t i) →
    ∀ i ∈ writes, cell (f s) i = cell (f t) i

namespace Within

variable {reads writes reads' writes' : Set ι} {f g : σ → σ}

/-- An operation stores the same after another one that writes nothing it reads. -/
theorem determined_after (a : Within cell reads writes f) (b : Within cell reads' writes' g)
    (apart : ∀ i ∈ writes', i ∉ reads) (s : σ) {i : ι} (written : i ∈ writes) :
    cell (f (g s)) i = cell (f s) i := by
  apply a.determined _ _ _ i written
  intro j read
  exact b.unchanged s j fun written' => apart j written' read

/-- Operations whose footprints are apart commute. -/
theorem commute (injective : Function.Injective cell) (a : Within cell reads writes f)
    (b : Within cell reads' writes' g) (apart : ∀ i ∈ writes, i ∉ reads' ∪ writes')
    (apart' : ∀ i ∈ writes', i ∉ reads) (s : σ) : f (g s) = g (f s) := by
  apply injective
  funext i
  by_cases written : i ∈ writes
  · have other : i ∉ writes' := fun written' => apart i written (.inr written')
    rw [a.determined_after b apart' s written, b.unchanged _ i other]
  · rw [a.unchanged _ i written]
    by_cases written' : i ∈ writes'
    · have stored := b.determined_after a (fun j first read => apart j first (.inl read)) s written'
      exact stored.symm
    · rw [b.unchanged _ i written', b.unchanged _ i written', a.unchanged _ i written]

/-- An operation that does not read what it writes is idempotent. -/
theorem idempotent (injective : Function.Injective cell) (a : Within cell reads writes f)
    (apart : ∀ i ∈ writes, i ∉ reads) (s : σ) : f (f s) = f s := by
  apply injective
  funext i
  by_cases written : i ∈ writes
  · exact a.determined_after a apart s written
  · exact a.unchanged _ i written

end Within

end Footprint
