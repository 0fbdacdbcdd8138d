/-
Module: GenericSumType.Proofs.RecipeStore
Layer: Proofs
Purpose: The recipe store refines its catalogue.  One lemma for each handler says which store it leaves,
  without an undefined access; one lemma for each request says that this store represents the served
  catalogue.  The run over a queue is the library rule.
Imports: GenericSumType.Proofs.CommandLoop, GenericSumType.Spec.RecipeCatalogue
Trusted boundary: none
Main exports: Represents.fresh, step_after, Serves, served_serves, after_represents, run_represents,
  recipe_store_refines_catalogue
Open obligations: none
-/
import GenericSumType.Proofs.CommandLoop
import GenericSumType.Spec.RecipeCatalogue

namespace GenericSumType

namespace RecipeParam

open CString

section Numbers

@[simp] theorem slotOf_natCast (n : Fin RECIPE_SLOT_MAX) : slotOf ((n : Nat) : Int) = some n := by
  simp [slotOf]

@[simp] theorem slotIndexValid_natCast (n : Fin RECIPE_SLOT_MAX) :
    slotIndexValid ((n : Nat) : Int) = true := by
  have bound := n.isLt
  simp only [slotIndexValid, Bool.and_eq_true, decide_eq_true_eq]
  omega

/-- A number either is that of a slot or is refused by the range check. -/
theorem number_cases (number : Int) :
    (slotOf number = none ∧ slotIndexValid number = false) ∨
      ∃ n : Fin RECIPE_SLOT_MAX, number = ((n : Nat) : Int) := by
  by_cases inside : 0 ≤ number ∧ number.toNat < RECIPE_SLOT_MAX
  · exact .inr ⟨⟨number.toNat, inside.2⟩, (Int.toNat_of_nonneg inside.1).symm⟩
  · refine .inl ⟨dif_neg inside, ?_⟩
    simp only [slotIndexValid, Bool.and_eq_false_iff, decide_eq_false_iff_not]
    omega

theorem slotNumber_injective : Function.Injective slotNumber := by
  intro a b same
  cases a with
  | none =>
      cases b with
      | none => rfl
      | some n => simp [slotNumber] at same
  | some m =>
      cases b with
      | none => simp [slotNumber] at same
      | some n =>
          have values : (m : Nat) = n := Int.ofNat_inj.mp same
          exact congrArg some (Fin.ext values)

end Numbers

section Slots

variable {store : RecipeStore} {s : RecipeCatalogue} {slot : RecipeSlot}

theorem SlotHolds.used_eq_zero_iff {held : Option RecipeName} (holds : SlotHolds slot held) :
    slot.used = 0 ↔ held = none := by
  cases held with
  | none => simp [holds.1]
  | some name =>
      obtain rfl := holds
      simp

/-- `%s` prints the name of a used slot. -/
theorem SlotHolds.readString {name : RecipeName} (holds : SlotHolds slot (some name)) :
    readString slot.name.bytes = .ok name.chars := by
  obtain rfl := holds
  exact readString_padded name.noNul name.fits

theorem SlotHolds.terminated {held : Option RecipeName} (holds : SlotHolds slot held) :
    0 ∈ slot.name.bytes := by
  cases held with
  | none =>
      obtain ⟨_, stale, bytes⟩ := holds
      simp [bytes]
  | some name =>
      obtain rfl := holds
      have bytes := padded_eq_append_zero name.fits
      simp [CharArray.ofText, bytes]

/-- A slot that was emptied holds nothing; the bytes behind the first one are stale. -/
theorem RecipeSlot.emptied_holds (slot : RecipeSlot) : SlotHolds slot.emptied none := by
  obtain ⟨emptied, cleared, stale, bytes⟩ := set_first_nul slot.name (Nat.zero_lt_succ _)
  have first : slot.name.set 0 0 = .ok slot.emptied.name := if_pos (Nat.zero_lt_succ _)
  rw [first] at cleared
  cases cleared
  exact ⟨rfl, stale, bytes⟩

namespace Represents

theorem fresh : Represents freshStore .empty where
  slots n := by
    have unused : freshStore.slot n = { used := 0, name := .zero RECIPE_NAME_MAX } :=
      Vector.getElem_replicate n.isLt
    rw [unused]
    exact ⟨rfl, List.replicate (RECIPE_NAME_MAX - 1) 0, rfl⟩
  current := rfl
  answer := rfl

/-- Writing one slot and nothing else. -/
theorem setSlot (represents : Represents store s) {n : Fin RECIPE_SLOT_MAX} {held : Option RecipeName}
    (holds : SlotHolds slot held) {s' : RecipeCatalogue}
    (names : s'.names = Function.update s.names n held) (selected : s'.selected = s.selected)
    (answer : s'.answer = s.answer) : Represents (store.setSlot n slot) s' where
  slots m := by
    rw [names]
    by_cases same : n = m
    · subst same
      rw [Function.update_self, RecipeStore.slot_setSlot_self]
      exact holds
    · rw [Function.update_of_ne (Ne.symm same), RecipeStore.slot_setSlot_of_ne store same]
      exact represents.slots m
  current := selected ▸ represents.current
  answer := answer ▸ represents.answer

/-- `%s` prints the name of a slot in use, whatever the other fields of the store are. -/
theorem readString_slot (represents : Represents store s) {n : Fin RECIPE_SLOT_MAX} {name : RecipeName}
    (held : s.names n = some name) (current answer : Int) :
    CString.readString
        (RecipeStore.slot { slots := store.slots, current := current, lastQueryResult := answer }
          n).name.bytes =
      .ok name.chars :=
  SlotHolds.readString (held ▸ represents.slots n)

theorem used_eq_zero_iff (represents : Represents store s) (n : Fin RECIPE_SLOT_MAX) :
    (store.slot n).used = 0 ↔ s.names n = none :=
  (represents.slots n).used_eq_zero_iff

theorem used_of_held (represents : Represents store s) {n : Fin RECIPE_SLOT_MAX} {name : RecipeName}
    (held : s.names n = some name) : (store.slot n).used ≠ 0 := by
  rw [Ne, represents.used_eq_zero_iff, held]
  exact Option.some_ne_none name

theorem current_eq_iff (represents : Represents store s) (n : Fin RECIPE_SLOT_MAX) :
    store.current = ((n : Nat) : Int) ↔ s.selected = some n := by
  rw [represents.current]
  exact slotNumber_injective.eq_iff (b := some n)

end Represents

/-- A delete of an unused slot and a delete of the current one are refused. -/
theorem served_delete_refused {n : Fin RECIPE_SLOT_MAX}
    (refused : (store.slot n).used = 0 ∨ store.current = ((n : Nat) : Int)) :
    store.served (.delete n) = store :=
  if_pos refused

theorem served_delete {n : Fin RECIPE_SLOT_MAX} (used : (store.slot n).used ≠ 0)
    (other : store.current ≠ ((n : Nat) : Int)) :
    store.served (.delete n) = store.setSlot n (store.slot n).emptied :=
  if_neg (not_or_intro used other)

theorem served_select_unused {n : Fin RECIPE_SLOT_MAX} (unused : (store.slot n).used = 0) :
    store.served (.select n) = store :=
  if_pos unused

theorem served_select {n : Fin RECIPE_SLOT_MAX} (used : (store.slot n).used ≠ 0) :
    store.served (.select n) = { store with current := ((n : Nat) : Int) } :=
  if_neg used

theorem notInUse_natCast (store : RecipeStore) (n : Fin RECIPE_SLOT_MAX) :
    notInUse store ((n : Nat) : Int) = .ok ((store.slot n).used == 0) := by
  rw [notInUse, slotIndexValid_natCast, arrayIndex_natCast]
  rfl

/-- A number outside of the table is in no use. -/
theorem notInUse_invalid {number : Int} (invalid : slotIndexValid number = false) :
    notInUse store number = .ok true := by
  rw [notInUse, invalid]
  rfl

end Slots

section Handlers

variable {store : RecipeStore} {s : RecipeCatalogue}

/-- `on_create`: the old contents of the slot do not matter. -/
theorem onCreate_after (c : CmdRecipeCreate) (store : RecipeStore) :
    ∃ line, onCreate c store =
      .ok (store.after ((slotOf c.number).map (.create · (.ofArray c.name))), line) := by
  rcases c with ⟨number, name⟩
  rcases number_cases number with ⟨noSlot, invalid⟩ | ⟨n, rfl⟩
  · rw [onCreate, noSlot]
    simp only [invalid]
    exact ⟨_, rfl⟩
  · rw [slotOf_natCast]
    have reachable : RECIPE_NAME_MAX - 1 ≤ name.bytes.length := by
      rw [name.length]
      exact Nat.sub_le _ _
    obtain ⟨copied, copy, terminate⟩ :=
      @strncpy_then_terminate RECIPE_NAME_MAX (RECIPE_NAME_MAX - 1) (store.slot n).name _ rfl reachable
    have shown : readString
        (CharArray.ofText ((text name.bytes).take (RECIPE_NAME_MAX - 1))
          (RecipeName.ofArray name).fits.le).bytes = .ok (RecipeName.ofArray name).chars :=
      readString_padded (RecipeName.ofArray name).noNul (RecipeName.ofArray name).fits
    rw [onCreate]
    simp only [slotIndexValid_natCast, arrayIndex_natCast, ok_bind, copy, terminate, shown]
    exact ⟨_, rfl⟩

/-- `on_delete` refuses the selected recipe. -/
theorem onDelete_after (c : CmdRecipeDelete) (store : RecipeStore) :
    ∃ line, onDelete c store = .ok (store.after ((slotOf c.number).map .delete), line) := by
  rcases c with ⟨number⟩
  rcases number_cases number with ⟨noSlot, invalid⟩ | ⟨n, rfl⟩
  · rw [onDelete, notInUse_invalid invalid, ok_bind, noSlot]
    exact ⟨_, rfl⟩
  · rw [slotOf_natCast, onDelete, notInUse_natCast, ok_bind]
    change ∃ line, _ = Except.ok (store.served (.delete n), line)
    by_cases unused : (store.slot n).used = 0
    · rw [served_delete_refused (.inl unused), if_pos (beq_iff_eq.mpr unused)]
      exact ⟨_, rfl⟩
    · rw [if_neg (beq_iff_eq.not.mpr unused)]
      by_cases current : store.current = ((n : Nat) : Int)
      · rw [served_delete_refused (.inr current), if_pos current]
        exact ⟨_, rfl⟩
      · have cleared : (store.slot n).name.set 0 0 = .ok (store.slot n).emptied.name :=
          if_pos (Nat.zero_lt_succ _)
        rw [served_delete unused current, if_neg current, arrayIndex_natCast, ok_bind, cleared]
        exact ⟨_, rfl⟩

/-- `on_select` prints the name of a used slot. -/
theorem onSelect_after (represents : Represents store s) (c : CmdRecipeSelect) :
    ∃ line, onSelect c store = .ok (store.after ((slotOf c.number).map .select), line) := by
  rcases c with ⟨number⟩
  rcases number_cases number with ⟨noSlot, invalid⟩ | ⟨n, rfl⟩
  · rw [onSelect, notInUse_invalid invalid, ok_bind, noSlot]
    exact ⟨_, rfl⟩
  · rw [slotOf_natCast, onSelect, notInUse_natCast, ok_bind]
    change ∃ line, _ = Except.ok (store.served (.select n), line)
    cases held : s.names n with
    | none =>
        have unused := (represents.used_eq_zero_iff n).mpr held
        rw [served_select_unused unused, if_pos (beq_iff_eq.mpr unused)]
        exact ⟨_, rfl⟩
    | some name =>
        have used := represents.used_of_held held
        rw [served_select used, if_neg (beq_iff_eq.not.mpr used)]
        simp only [arrayIndex_natCast, ok_bind, represents.readString_slot held]
        exact ⟨_, rfl⟩

/-- `on_query` reads the slot of the selection only when there is one. -/
theorem onQuery_after (represents : Represents store s) (c : CmdRecipeQuery) :
    ∃ line, onQuery c store = .ok (store.after (some .query), line) := by
  rw [onQuery]
  cases chosen : s.selected with
  | none =>
      have unselected : store.current = -1 := by rw [represents.current, chosen, slotNumber]
      rw [if_neg (by simp [unselected])]
      exact ⟨_, rfl⟩
  | some n =>
      have selected := (represents.current_eq_iff n).mpr chosen
      obtain ⟨name, held⟩ := Option.isSome_iff_exists.mp (s.selectedInUse n chosen)
      change ∃ line, _ = Except.ok (store.served .query, line)
      simp only [RecipeStore.served, selected, arrayIndex_natCast, ok_bind,
        if_pos (Int.natCast_nonneg _), represents.readString_slot held]
      exact ⟨_, rfl⟩

/-- Every command does what it asks for, without an undefined access. -/
theorem step_after (represents : Represents store s) (c : Command) :
    ∃ line, handlers.step store c = .ok (store.after (request c), line) :=
  match c with
  | ⟨⟨0, _⟩, c⟩ => onCreate_after c store
  | ⟨⟨1, _⟩, c⟩ => onDelete_after c store
  | ⟨⟨2, _⟩, c⟩ => onSelect_after represents c
  | ⟨⟨3, _⟩, c⟩ => onQuery_after represents c

end Handlers

section Requests

variable {store : RecipeStore} {s : RecipeCatalogue}

/-- A request serves the catalogue that the store represents, and leaves the store as it was when it is
    rejected. -/
structure Serves (store : RecipeStore) (s : RecipeCatalogue) (r : RecipeRequest) : Prop where
  represents : Represents (store.served r) (s.serve (some r))
  unchanged : s.accept r = none → store.served r = store

theorem Serves.accepted {r : RecipeRequest} {s' : RecipeCatalogue} (accepted : s.accept r = some s')
    (represents : Represents (store.served r) s') : Serves store s r where
  represents := by
    rw [Catalogue.serve_of_accept accepted]
    exact represents
  unchanged rejected := by
    rw [accepted] at rejected
    cases rejected

theorem Serves.rejected {r : RecipeRequest} (kept : store.served r = store)
    (rejected : s.accept r = none) (represents : Represents store s) : Serves store s r where
  represents := by
    rw [kept, Catalogue.serve_of_rejected (r := some r) rejected]
    exact represents
  unchanged _ := kept

theorem create_serves (represents : Represents store s) (n : Fin RECIPE_SLOT_MAX)
    (name : RecipeName) : Serves store s (.create n name) := by
  have holds : SlotHolds { used := 1, name := .ofText name.chars name.fits.le } (some name) := rfl
  exact Serves.accepted rfl (represents.setSlot holds rfl rfl rfl)

/-- The selection stays in use, since the selected slot is not unbound. -/
theorem delete_serves (represents : Represents store s) (n : Fin RECIPE_SLOT_MAX) :
    Serves store s (.delete n) := by
  have current := represents.current_eq_iff n
  cases held : s.names n with
  | none =>
      have unused := (represents.used_eq_zero_iff n).mpr held
      have refused := Catalogue.accept_delete_unbound held
      exact Serves.rejected (served_delete_refused (.inl unused)) refused represents
  | some name =>
      by_cases chosen : s.selected = some n
      · exact Serves.rejected (served_delete_refused (.inr (current.mpr chosen)))
          (Catalogue.accept_delete_selected chosen) represents
      · have used := represents.used_of_held held
        apply Serves.accepted (Catalogue.accept_delete (held ▸ rfl) chosen)
        rw [served_delete used (current.not.mpr chosen)]
        exact represents.setSlot (store.slot n).emptied_holds rfl rfl rfl

theorem select_serves (represents : Represents store s) (n : Fin RECIPE_SLOT_MAX) :
    Serves store s (.select n) := by
  cases held : s.names n with
  | none =>
      have unused := (represents.used_eq_zero_iff n).mpr held
      exact Serves.rejected (served_select_unused unused) (Catalogue.accept_select_unbound held)
        represents
  | some name =>
      apply Serves.accepted (Catalogue.accept_select (held ▸ rfl))
      rw [served_select (represents.used_of_held held)]
      exact
        { slots := represents.slots
          current := rfl
          answer := represents.answer }

theorem query_serves (represents : Represents store s) : Serves store s .query := by
  apply Serves.accepted rfl
  exact
    { slots := represents.slots
      current := represents.current
      answer := represents.current }

theorem served_serves (represents : Represents store s) (r : RecipeRequest) : Serves store s r := by
  cases r with
  | create n name => exact create_serves represents n name
  | delete n => exact delete_serves represents n
  | select n => exact select_serves represents n
  | query => exact query_serves represents

theorem after_represents (represents : Represents store s) (r : Option RecipeRequest) :
    Represents (store.after r) (s.serve r) := by
  cases r with
  | none => exact represents
  | some r => exact (served_serves represents r).represents

theorem after_rejected (represents : Represents store s) {r : Option RecipeRequest}
    (rejected : r.bind s.accept = none) : store.after r = store := by
  cases r with
  | none => rfl
  | some r => exact (served_serves represents r).unchanged rejected

end Requests

section Queues

theorem dispatchQueue_append {commands more : List Command} {store store' : RecipeStore}
    {lines lines' : List Line} (front : dispatchQueue commands = .ok (.ok (store, lines)))
    (back : StepMachine.run handlers.step store more = .ok (store', lines')) :
    dispatchQueue (commands ++ more) = .ok (.ok (store', lines ++ lines')) := by
  rw [dispatchQueue, SumInstance.dispatchAll_eq_run] at front ⊢
  exact congrArg Except.ok (StepMachine.run_append (Except.ok.inj front) back)

/-- From a store that represents a catalogue, a queue runs to a store that represents the catalogue which
    served it. -/
theorem run_represents {store : RecipeStore} {s : RecipeCatalogue} (represents : Represents store s)
    (commands : List Command) :
    ∃ store' lines, StepMachine.run handlers.step store commands = .ok (store', lines) ∧
      Represents store' ((commands.map request).foldl Catalogue.serve s) := by
  rw [List.foldl_map]
  refine StepMachine.run_follows ?_ represents commands
  intro store s c represents
  obtain ⟨line, done⟩ := step_after represents c
  exact ⟨_, line, done, after_represents represents _⟩

theorem Represents.selectionInUse {store : RecipeStore} {s : RecipeCatalogue}
    (represents : Represents store s) (chosen : s.selected.isSome) : SelectionInUse store := by
  obtain ⟨n, selected⟩ := Option.isSome_iff_exists.mp chosen
  obtain ⟨name, held⟩ := Option.isSome_iff_exists.mp (s.selectedInUse n selected)
  have slot : store.slot n = _ := held ▸ represents.slots n
  exact ⟨n, (represents.current_eq_iff n).mpr selected, by rw [slot]⟩

theorem Represents.current_eq_neg_one_iff {store : RecipeStore} {s : RecipeCatalogue}
    (represents : Represents store s) : store.current = -1 ↔ s.selected = none := by
  rw [represents.current]
  exact slotNumber_injective.eq_iff (b := none)

/-- After any queue of commands on a fresh store, the store represents the catalogue that served the same
    requests; no array access was out of bounds and every string is terminated.  A rejected command
    leaves the whole store as it is, and a selection once made is never lost. -/
theorem recipe_store_refines_catalogue (commands : List Command) :
    ∃ store lines, dispatchQueue commands = .ok (.ok (store, lines)) ∧
      Represents store (catalogueAfter commands) ∧
      (store.current = -1 ∨ SelectionInUse store) ∧
      (∀ n : Fin RECIPE_SLOT_MAX, 0 ∈ (store.slot n).name.bytes) ∧
      (∀ c, (request c).bind (catalogueAfter commands).accept = none →
        ∃ line, dispatchQueue (commands ++ [c]) = .ok (.ok (store, lines ++ [line]))) ∧
      (store.current ≠ -1 → ∀ more, ∃ store' lines',
        dispatchQueue (commands ++ more) = .ok (.ok (store', lines')) ∧ SelectionInUse store') := by
  obtain ⟨store, lines, ran, represents⟩ := run_represents Represents.fresh commands
  have dispatched : dispatchQueue commands = .ok (.ok (store, lines)) := by
    rw [dispatchQueue, SumInstance.dispatchAll_eq_run, ran]
  refine ⟨store, lines, dispatched, represents, ?_, ?_, ?_, ?_⟩
  · cases chosen : (catalogueAfter commands).selected with
    | none => exact .inl (represents.current_eq_neg_one_iff.mpr chosen)
    | some n => exact .inr (represents.selectionInUse (chosen ▸ rfl))
  · intro n
    exact (represents.slots n).terminated
  · intro c rejected
    obtain ⟨line, done⟩ := step_after represents c
    rw [after_rejected represents rejected] at done
    exact ⟨line, dispatchQueue_append dispatched (StepMachine.run_cons_of_ok done rfl)⟩
  · intro selected more
    have chosen : (catalogueAfter commands).selected.isSome :=
      Option.isSome_iff_ne_none.mpr fun none => selected (represents.current_eq_neg_one_iff.mpr none)
    obtain ⟨store', lines', continued, later⟩ := run_represents represents more
    exact ⟨store', lines ++ lines', dispatchQueue_append dispatched continued,
      later.selectionInUse (Catalogue.selected_stays chosen _)⟩

end Queues

end RecipeParam

end GenericSumType
