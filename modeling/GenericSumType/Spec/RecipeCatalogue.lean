/-
Module: GenericSumType.Spec.RecipeCatalogue
Layer: Spec
Purpose: What a recipe store is for: a partial map from slots to names with an optional selection, which
  always is a slot in use, and the answer of the last query.  A request is accepted or rejected, and a
  rejected request changes nothing.  `Represents` says how the arrays of the store hold a catalogue.
Imports: GenericSumType.Examples.RecipeCommand, Mathlib.Logic.Function.Basic
Trusted boundary: human-reviewed statement of purpose
Main exports: Catalogue, Request, Catalogue.accept, Catalogue.serve, Catalogue.selected_stays, RecipeName,
  request, Represents, SelectionInUse, RecipeStore.served, NameSameNumber, OrderMatters
Open obligations: none
-/
import GenericSumType.Examples.RecipeCommand
import Mathlib.Logic.Function.Basic

namespace GenericSumType

/-- `answer` is the selection that the last query saw. -/
@[ext]
structure Catalogue (ι N : Type) where
  names : ι → Option N
  selected : Option ι
  answer : Option ι
  selectedInUse : ∀ n, selected = some n → (names n).isSome

inductive Request (ι N : Type) where
  | create (n : ι) (name : N)
  | delete (n : ι)
  | select (n : ι)
  | query

/-- The slot that a request names. -/
def Request.slot {ι N : Type} : Request ι N → Option ι
  | create n _ | delete n | select n => some n
  | query => none

namespace Catalogue

variable {ι N : Type}

/-- No slot is in use. -/
def empty : Catalogue ι N where
  names _ := none
  selected := none
  answer := none
  selectedInUse _ chosen := nomatch chosen

variable [DecidableEq ι]

theorem inUse_update {s : Catalogue ι N} {n : ι} {value : Option N}
    (kept : value.isSome ∨ s.selected ≠ some n) :
    ∀ m, s.selected = some m → (Function.update s.names n value m).isSome := by
  intro m chosen
  by_cases same : m = n
  · subst same
    rw [Function.update_self]
    exact kept.resolve_right (not_not_intro chosen)
  · rw [Function.update_of_ne same]
    exact s.selectedInUse m chosen

/-- Bind slot `n` to a name, whatever it was bound to. -/
def bind (s : Catalogue ι N) (n : ι) (name : N) : Catalogue ι N :=
  { s with
    names := Function.update s.names n (some name)
    selectedInUse := inUse_update (.inl rfl) }

/-- Unbind a slot that is not selected. -/
def unbind (s : Catalogue ι N) (n : ι) (free : s.selected ≠ some n) : Catalogue ι N :=
  { s with
    names := Function.update s.names n none
    selectedInUse := inUse_update (.inr free) }

omit [DecidableEq ι] in
/-- Select a slot in use. -/
def choose (s : Catalogue ι N) (n : ι) (inUse : (s.names n).isSome) : Catalogue ι N :=
  { s with
    selected := some n
    selectedInUse := fun _ chosen => Option.some.inj chosen ▸ inUse }

/-- The catalogue after a request, or nothing when the request is rejected. -/
def accept (s : Catalogue ι N) : Request ι N → Option (Catalogue ι N)
  | .create n name => some (s.bind n name)
  | .delete n =>
      if (s.names n).isSome then
        if free : s.selected ≠ some n then some (s.unbind n free) else none
      else
        none
  | .select n => if inUse : (s.names n).isSome then some (s.choose n inUse) else none
  | .query => some { s with answer := s.selected }

section Accept

variable {s : Catalogue ι N} {n : ι}

theorem accept_delete (inUse : (s.names n).isSome) (free : s.selected ≠ some n) :
    s.accept (.delete n) = some (s.unbind n free) := by
  rw [accept, if_pos inUse, dif_pos free]

theorem accept_delete_selected (chosen : s.selected = some n) : s.accept (.delete n) = none := by
  rw [accept, dif_neg (not_not_intro chosen), ite_self]

theorem accept_delete_unbound (unbound : s.names n = none) : s.accept (.delete n) = none := by
  simp [accept, unbound]

theorem accept_select (inUse : (s.names n).isSome) :
    s.accept (.select n) = some (s.choose n inUse) := by
  rw [accept, dif_pos inUse]

theorem accept_select_unbound (unbound : s.names n = none) : s.accept (.select n) = none := by
  simp [accept, unbound]

end Accept

/-- The catalogue after a request that may have been rejected; `none` stands for a request that names no
    slot. -/
def serve (s : Catalogue ι N) (r : Option (Request ι N)) : Catalogue ι N :=
  (r.bind s.accept).getD s

theorem serve_of_accept {s s' : Catalogue ι N} {r : Request ι N} (accepted : s.accept r = some s') :
    s.serve (some r) = s' := by
  rw [serve, Option.bind_some, accepted, Option.getD_some]

theorem serve_of_rejected {s : Catalogue ι N} {r : Option (Request ι N)}
    (rejected : r.bind s.accept = none) : s.serve r = s := by
  rw [serve, rejected, Option.getD_none]

/-- No request takes the selection away. -/
theorem accept_selected {s s' : Catalogue ι N} {r : Request ι N} (accepted : s.accept r = some s')
    (chosen : s.selected.isSome) : s'.selected.isSome := by
  cases r with
  | create n name =>
      obtain rfl := Option.some.inj accepted
      exact chosen
  | delete n =>
      cases held : s.names n with
      | none =>
          rw [accept_delete_unbound held] at accepted
          cases accepted
      | some name =>
          by_cases selected : s.selected = some n
          · rw [accept_delete_selected selected] at accepted
            cases accepted
          · rw [accept_delete (held ▸ rfl) selected] at accepted
            obtain rfl := Option.some.inj accepted
            exact chosen
  | select n =>
      cases held : s.names n with
      | none =>
          rw [accept_select_unbound held] at accepted
          cases accepted
      | some name =>
          rw [accept_select (held ▸ rfl)] at accepted
          obtain rfl := Option.some.inj accepted
          rfl
  | query =>
      obtain rfl := Option.some.inj accepted
      exact chosen

theorem serve_selected {s : Catalogue ι N} {r : Option (Request ι N)} (chosen : s.selected.isSome) :
    (s.serve r).selected.isSome := by
  cases outcome : r.bind s.accept with
  | none =>
      rw [serve_of_rejected outcome]
      exact chosen
  | some s' =>
      obtain ⟨request, rfl, accepted⟩ := Option.bind_eq_some_iff.mp outcome
      rw [serve_of_accept accepted]
      exact accept_selected accepted chosen

/-- Once something is selected, something stays selected. -/
theorem selected_stays {s : Catalogue ι N} (chosen : s.selected.isSome)
    (requests : List (Option (Request ι N))) : (requests.foldl serve s).selected.isSome := by
  induction requests generalizing s with
  | nil => exact chosen
  | cons r requests ih => exact ih (serve_selected chosen)

end Catalogue

namespace RecipeParam

open CString

/-- A name as a slot keeps it: there is room for its NUL. -/
@[ext]
structure RecipeName where
  chars : List UInt8
  noNul : 0 ∉ chars
  fits : chars.length < RECIPE_NAME_MAX

/-- The first 31 characters of the string in a `char[32]`. -/
def RecipeName.ofArray (a : CharArray RECIPE_NAME_MAX) : RecipeName where
  chars := (text a.bytes).take (RECIPE_NAME_MAX - 1)
  noNul member := zero_notMem_text (List.mem_of_mem_take member)
  fits := Nat.lt_succ_of_le (List.length_take_le _ _)

/-- The slot of a number, if there is one. -/
def slotOf (number : Int) : Option (Fin RECIPE_SLOT_MAX) :=
  if inside : 0 ≤ number ∧ number.toNat < RECIPE_SLOT_MAX then some ⟨number.toNat, inside.2⟩ else none

abbrev RecipeRequest : Type := Request (Fin RECIPE_SLOT_MAX) RecipeName

/-- What the commands ask for, in list order; nothing when they name no slot. -/
def requests : (i : Fin RecipeCommand.size) → RecipeCommand.Payload model i → Option RecipeRequest
  | ⟨0, _⟩ => fun (c : CmdRecipeCreate) => (slotOf c.number).map (.create · (.ofArray c.name))
  | ⟨1, _⟩ => fun (c : CmdRecipeDelete) => (slotOf c.number).map .delete
  | ⟨2, _⟩ => fun (c : CmdRecipeSelect) => (slotOf c.number).map .select
  | ⟨3, _⟩ => fun (_ : CmdRecipeQuery) => some .query

def request (c : Command) : Option RecipeRequest := requests c.1 c.2

abbrev RecipeCatalogue : Type := Catalogue (Fin RECIPE_SLOT_MAX) RecipeName

/-- The catalogue after a queue of commands. -/
def catalogueAfter (commands : List Command) : RecipeCatalogue :=
  (commands.map request).foldl Catalogue.serve .empty

/-- The number that stands for a selection. -/
def slotNumber : Option (Fin RECIPE_SLOT_MAX) → Int
  | none => -1
  | some n => (n : Nat)

/-- A slot holds a name when it is used and its array is that name followed by NUL bytes only; a slot
    that is not used holds the empty string, and its other bytes may be anything. -/
def SlotHolds (slot : RecipeSlot) : Option RecipeName → Prop
  | some name => slot = { used := 1, name := .ofText name.chars name.fits.le }
  | none => slot.used = 0 ∧ ∃ stale, slot.name.bytes = 0 :: stale

structure Represents (store : RecipeStore) (s : RecipeCatalogue) : Prop where
  slots : ∀ n : Fin RECIPE_SLOT_MAX, SlotHolds (store.slot n) (s.names n)
  current : store.current = slotNumber s.selected
  answer : store.lastQueryResult = slotNumber s.answer

/-- `current` is the number of a used slot. -/
def SelectionInUse (store : RecipeStore) : Prop :=
  ∃ n : Fin RECIPE_SLOT_MAX, store.current = (n : Nat) ∧ (store.slot n).used = 1

section Orders

/-- `slot->name[0] = '\0';` -/
def RecipeSlot.emptied (slot : RecipeSlot) : RecipeSlot where
  used := 0
  name :=
    { bytes := slot.name.bytes.set 0 0
      length := slot.name.length_set 0 0 }

/-- The store that a request leaves, stale bytes included. -/
def RecipeStore.served (store : RecipeStore) : RecipeRequest → RecipeStore
  | .create n name => store.setSlot n { used := 1, name := .ofText name.chars name.fits.le }
  | .delete n =>
      if (store.slot n).used = 0 ∨ store.current = (n : Nat) then store
      else store.setSlot n (store.slot n).emptied
  | .select n => if (store.slot n).used = 0 then store else { store with current := (n : Nat) }
  | .query => { store with lastQueryResult := store.current }

/-- The store that a command leaves. -/
def RecipeStore.after (store : RecipeStore) (r : Option RecipeRequest) : RecipeStore :=
  r.elim store store.served

/-- The `number` fields, in list order. -/
def numbers : (i : Fin RecipeCommand.size) → RecipeCommand.Payload model i → Option Int
  | ⟨0, _⟩ => fun (c : CmdRecipeCreate) => some c.number
  | ⟨1, _⟩ => fun (c : CmdRecipeDelete) => some c.number
  | ⟨2, _⟩ => fun (c : CmdRecipeSelect) => some c.number
  | ⟨3, _⟩ => fun (_ : CmdRecipeQuery) => none

/-- The number that a command names, valid or not. -/
def number (c : Command) : Option Int := numbers c.1 c.2

def NameSameNumber (a b : Command) : Prop := ∃ n, number a = some n ∧ number b = some n

/-- A select succeeds when its slot is used.  It overtakes another request when it decides what that one
    does: a select that succeeds too, a query that would have seen another selection, or a delete of the
    slot that was selected. -/
def Overtakes (store : RecipeStore) : RecipeRequest → RecipeRequest → Prop
  | .select j, .select i => (store.slot j).used ≠ 0 ∧ (store.slot i).used ≠ 0
  | .select j, .query => (store.slot j).used ≠ 0 ∧ store.current ≠ (j : Nat)
  | .select j, .delete i => (store.slot j).used ≠ 0 ∧ store.current = (i : Nat)
  | _, _ => False

/-- The order of two commands matters when the request of one overtakes that of the other. -/
def OrderMatters (store : RecipeStore) (a b : Command) : Prop :=
  ∃ r q, request a = some r ∧ request b = some q ∧ (Overtakes store r q ∨ Overtakes store q r)

end Orders

end RecipeParam

end GenericSumType
