/-
Module: GenericSumType.Library.ArgumentCheck
Layer: Library
Purpose: Argument lists that are checked position by position, by a check that may let more than one
  argument through.  When such a check lets exactly the right arguments through, when it tells the
  permutations of the right arguments apart, and when a list stays accepted after the positions are
  reordered, are conditions on pairs of positions.
Imports: Mathlib.Data.List.FinRange, Mathlib.Logic.Equiv.Basic
Trusted boundary: none
Main exports: Passes, passes_iff_length, forall₂_ofFn_iff, exact_iff, permutations_iff, reorderings_iff
Open obligations: none
-/
import Mathlib.Data.List.FinRange
import Mathlib.Logic.Equiv.Basic

namespace ArgumentCheck

variable {α β κ : Type*} {n : Nat}

/-- There is one argument for each position, and it fits there. -/
def Passes (fits : Fin n → β → Prop) (args : List β) : Prop :=
  ∃ f : Fin n → β, args = List.ofFn f ∧ ∀ i, fits i (f i)

section Lists

variable {fits : Fin n → β → Prop} {args : List β}

theorem passes_ofFn {f : Fin n → β} : Passes fits (List.ofFn f) ↔ ∀ i, fits i (f i) := by
  constructor
  · rintro ⟨g, same, fit⟩
    rw [List.ofFn_injective same]
    exact fit
  · intro fit
    exact ⟨f, rfl, fit⟩

theorem length_of_passes (passes : Passes fits args) : args.length = n := by
  obtain ⟨f, rfl, _⟩ := passes
  exact List.length_ofFn

/-- The same as a condition on the entries of the list. -/
theorem passes_iff_length :
    Passes fits args ↔ args.length = n ∧ ∀ i : Fin n, ∀ b, args[(i : Nat)]? = some b → fits i b := by
  constructor
  · rintro ⟨f, rfl, fit⟩
    refine ⟨List.length_ofFn, ?_⟩
    intro i b found
    rw [List.getElem?_ofFn, dif_pos i.isLt] at found
    exact Option.some.inj found ▸ fit i
  · rintro ⟨rfl, fit⟩
    refine ⟨args.get, (List.ofFn_get args).symm, ?_⟩
    intro i
    exact fit i _ (List.getElem?_eq_getElem i.isLt)

/-- Checking a list against a list of the same positions. -/
theorem forall₂_ofFn_iff {R : α → β → Prop} {slots : Fin n → α} :
    List.Forall₂ R (List.ofFn slots) args ↔ Passes (fun i => R (slots i)) args := by
  rw [List.forall₂_iff_get, passes_iff_length]
  constructor
  · rintro ⟨lengths, related⟩
    rw [List.length_ofFn] at lengths
    refine ⟨lengths.symm, ?_⟩
    intro i b found
    obtain ⟨bound, rfl⟩ := List.getElem?_eq_some_iff.mp found
    have here := related i (by rw [List.length_ofFn]; exact i.isLt) bound
    simpa using here
  · rintro ⟨rfl, fit⟩
    refine ⟨List.length_ofFn, ?_⟩
    intro i left right
    have here := fit ⟨i, right⟩ args[i] (List.getElem?_eq_getElem right)
    simpa using here

/-- Arguments that are images of others are checked through the map. -/
theorem passes_map_iff {f : α → β} {sources : List α} :
    Passes fits (sources.map f) ↔ Passes (fun i a => fits i (f a)) sources := by
  rw [passes_iff_length, passes_iff_length, List.length_map]
  apply and_congr_right
  intro _
  apply forall_congr'
  intro i
  rw [List.getElem?_map]
  constructor
  · intro fit a found
    exact fit (f a) (by rw [found, Option.map_some])
  · intro fit b found
    obtain ⟨a, here, rfl⟩ := Option.map_eq_some_iff.mp found
    exact fit a here

end Lists

section Exactness

variable {fits : Fin n → β → Prop} {own : Fin n → β} {key : Fin n → κ}

/-- Only the right arguments pass exactly when no position lets another one through. -/
theorem exact_iff :
    (∀ args, Passes fits args ↔ args = List.ofFn own) ↔ ∀ i b, fits i b ↔ b = own i := by
  constructor
  · intro exact i b
    have right := passes_ofFn.mp ((exact (List.ofFn own)).mpr rfl)
    constructor
    · intro fit
      have passes : Passes fits (List.ofFn (Function.update own i b)) := by
        apply passes_ofFn.mpr
        intro j
        rcases eq_or_ne j i with rfl | other
        · rw [Function.update_self]
          exact fit
        · rw [Function.update_of_ne other]
          exact right j
      have same := List.ofFn_injective ((exact _).mp passes)
      rw [← same, Function.update_self]
    · rintro rfl
      exact right i
  · intro exact args
    constructor
    · rintro ⟨f, rfl, fit⟩
      exact congrArg List.ofFn (funext fun i => (exact i _).mp (fit i))
    · rintro rfl
      exact passes_ofFn.mpr fun i => (exact i _).mpr rfl

/-- A property of positions and where a swap takes them. -/
theorem forall_swap {P : Fin n → Fin n → Prop} {i j : Fin n} (left : P i j) (right : P j i)
    (others : ∀ l, P l l) (l : Fin n) : P l (Equiv.swap i j l) := by
  rcases eq_or_ne l i with rfl | offLeft
  · rw [Equiv.swap_apply_left]
    exact left
  · rcases eq_or_ne l j with rfl | offRight
    · rw [Equiv.swap_apply_right]
      exact right
    · rw [Equiv.swap_apply_of_ne_of_ne offLeft offRight]
      exact others l

/-- Once the keys tell all positions apart, only the identity keeps them. -/
theorem keeps_keys_iff_of_injective (apart : Function.Injective key) (s : Equiv.Perm (Fin n)) :
    (∀ i, key (s i) = key i) ↔ s = Equiv.refl _ := by
  constructor
  · intro keys
    apply Equiv.ext
    intro i
    exact apart (keys i)
  · rintro rfl i
    rfl

/-- The permutations of the right arguments are told apart by key exactly when arguments that fit at each
    other's position have the same key. -/
theorem permutations_iff (shared : ∀ i j, key i = key j → fits i (own j))
    (converse : ∀ i j, fits i (own j) → fits j (own i)) :
    (∀ s : Equiv.Perm (Fin n),
        Passes fits (List.ofFn fun i => own (s i)) ↔ ∀ i, key (s i) = key i) ↔
      ∀ i j, fits i (own j) → key i = key j := by
  constructor
  · intro exact i j fit
    have passes : Passes fits (List.ofFn fun l => own (Equiv.swap i j l)) :=
      passes_ofFn.mpr (@forall_swap _ (fun l m => fits l (own m)) i j fit (converse i j fit) fun l =>
        shared l l rfl)
    have keys := (exact (Equiv.swap i j)).mp passes i
    rw [Equiv.swap_apply_left] at keys
    exact keys.symm
  · intro apart s
    rw [passes_ofFn]
    constructor
    · intro fit i
      exact (apart i (s i) (fit i)).symm
    · intro keys i
      exact shared i (s i) (keys i).symm

/-- Reordering the positions keeps exactly the lists accepted whose keys it keeps when no argument fits at
    positions of different keys, and only then. -/
theorem reorderings_iff (inhabited : ∀ i, ∃ b, fits i b)
    (shared : ∀ i j b, key i = key j → fits i b → fits j b) :
    (∀ (s : Equiv.Perm (Fin n)) args, Passes fits args →
        (Passes (fun i => fits (s i)) args ↔ ∀ i, key (s i) = key i)) ↔
      ∀ i j b, fits i b → fits j b → key i = key j := by
  constructor
  · intro exact i j b fit fit'
    choose own fitOwn using inhabited
    -- `b` at the two positions, which may then be swapped
    have everywhere (l : Fin n) : fits l (if l = i ∨ l = j then b else own l) := by
      split
      · rename_i here
        rcases here with rfl | rfl
        · exact fit
        · exact fit'
      · exact fitOwn l
    have atLeft : fits j (if i = i ∨ i = j then b else own i) := by
      rw [if_pos (Or.inl rfl)]
      exact fit'
    have atRight : fits i (if j = i ∨ j = j then b else own j) := by
      rw [if_pos (Or.inr rfl)]
      exact fit
    have swapped := @forall_swap _ (fun l m => fits m (if l = i ∨ l = j then b else own l)) i j atLeft
      atRight everywhere
    have keys := (exact (Equiv.swap i j) _ (passes_ofFn.mpr everywhere)).mp (passes_ofFn.mpr swapped) i
    rw [Equiv.swap_apply_left] at keys
    exact keys.symm
  · rintro apart s args ⟨f, rfl, fit⟩
    rw [passes_ofFn]
    constructor
    · intro moved i
      exact apart (s i) i (f i) (moved i) (fit i)
    · intro keys i
      exact shared i (s i) (f i) (keys i).symm (fit i)

end Exactness

end ArgumentCheck
