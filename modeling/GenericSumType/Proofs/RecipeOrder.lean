/-
Module: GenericSumType.Proofs.RecipeOrder
Layer: Proofs
Purpose: Repeating a recipe command changes nothing, and when the order of two commands does not matter.
  The footprints of the requests settle every pair without a select; what a select changes for another
  request is worked out for each request.
Imports: GenericSumType.Library.Footprint, GenericSumType.Proofs.RecipeStore, Mathlib.Data.Set.Insert
Trusted boundary: none
Main exports: served_within, served_served, select_comm_iff, served_comm_iff, after_comm_iff,
  commands_repeat_and_commute
Open obligations: none
-/
import Mathlib.Data.Set.Insert
import GenericSumType.Library.Footprint
import GenericSumType.Proofs.RecipeStore

namespace GenericSumType

namespace RecipeParam

section Cells

/-- The parts of a store. -/
inductive Cell where
  | slot (n : Fin RECIPE_SLOT_MAX)
  | current
  | answer

def Cell.Content : Cell → Type
  | slot _ => RecipeSlot
  | current | answer => Int

def RecipeStore.cell (store : RecipeStore) : (c : Cell) → c.Content
  | .slot n => store.slot n
  | .current => store.current
  | .answer => store.lastQueryResult

theorem RecipeStore.cell_injective : Function.Injective RecipeStore.cell := by
  intro store other same
  rcases store with ⟨slots, current, answer⟩
  rcases other with ⟨slots', current', answer'⟩
  obtain rfl : current = current' := congrFun same .current
  obtain rfl : answer = answer' := congrFun same .answer
  have equal : slots = slots' := by
    apply Vector.ext
    intro i inside
    exact congrFun same (.slot ⟨i, inside⟩)
  rw [equal]

/-- What a request reads of the store. -/
def reads : RecipeRequest → Set Cell
  | .create _ _ => ∅
  | .delete n | .select n => {.slot n, .current}
  | .query => {.current}

def writes : RecipeRequest → Set Cell
  | .create n _ | .delete n => {.slot n}
  | .select _ => {.current}
  | .query => {.answer}

theorem RecipeStore.cell_setSlot_of_ne (store : RecipeStore) {n : Fin RECIPE_SLOT_MAX} {slot : RecipeSlot}
    {c : Cell} (other : c ≠ .slot n) : (store.setSlot n slot).cell c = store.cell c := by
  cases c with
  | slot m =>
      have apart : n ≠ m := fun same => other (same ▸ rfl)
      exact store.slot_setSlot_of_ne apart slot
  | current => rfl
  | answer => rfl

/-- Every request keeps to its footprint. -/
theorem served_within (r : RecipeRequest) :
    Footprint.Within RecipeStore.cell (reads r) (writes r) fun store => store.served r := by
  cases r with
  | create n name =>
      constructor
      · intro store c other
        exact store.cell_setSlot_of_ne other
      · rintro store store' _ c rfl
        exact (store.slot_setSlot_self n _).trans (store'.slot_setSlot_self n _).symm
  | delete n =>
      constructor
      · intro store c other
        rw [RecipeStore.served]
        split
        · rfl
        · exact store.cell_setSlot_of_ne other
      · rintro store store' same c rfl
        have slot : store.slot n = store'.slot n := same (.slot n) (.inl rfl)
        have current : store.current = store'.current := same .current (.inr rfl)
        change (store.served (.delete n)).slot n = (store'.served (.delete n)).slot n
        rw [RecipeStore.served, RecipeStore.served, slot, current]
        split
        · exact slot
        · rw [RecipeStore.slot_setSlot_self, RecipeStore.slot_setSlot_self]
  | select n =>
      constructor
      · intro store c other
        rw [RecipeStore.served]
        split
        · rfl
        · cases c with
          | slot m => rfl
          | current => exact absurd rfl other
          | answer => rfl
      · rintro store store' same c rfl
        have slot : store.slot n = store'.slot n := same (.slot n) (.inl rfl)
        have current : store.current = store'.current := same .current (.inr rfl)
        change (store.served (.select n)).current = (store'.served (.select n)).current
        rw [RecipeStore.served, RecipeStore.served, slot]
        split
        · exact current
        · rfl
  | query =>
      constructor
      · intro store c other
        cases c with
        | slot m => rfl
        | current => rfl
        | answer => exact absurd rfl other
      · rintro store store' same c rfl
        exact same .current rfl

end Cells

section Repeat

/-- A request served twice is served once. -/
theorem served_served (store : RecipeStore) (r : RecipeRequest) :
    (store.served r).served r = store.served r := by
  cases r with
  | create n name =>
      apply (served_within (.create n name)).idempotent RecipeStore.cell_injective _ store
      intro c _
      exact id
  | delete n =>
      by_cases refused : (store.slot n).used = 0 ∨ store.current = (n : Nat)
      · rw [served_delete_refused refused, served_delete_refused refused]
      · have accepted := not_or.mp refused
        rw [served_delete accepted.1 accepted.2]
        apply served_delete_refused
        left
        rw [RecipeStore.slot_setSlot_self]
        rfl
  | select n =>
      by_cases unused : (store.slot n).used = 0
      · rw [served_select_unused unused, served_select_unused unused]
      · rw [served_select unused]
        exact served_select unused
  | query =>
      apply (served_within .query).idempotent RecipeStore.cell_injective _ store
      rintro c rfl
      exact nofun

theorem after_after (store : RecipeStore) (r : Option RecipeRequest) :
    (store.after r).after r = store.after r := by
  cases r with
  | none => rfl
  | some r => exact served_served store r

end Repeat

section Order

variable {store : RecipeStore} {r q : RecipeRequest} {j : Fin RECIPE_SLOT_MAX}

/-- A request leaves the slots that it does not name. -/
theorem slot_served_of_ne (other : r.slot ≠ some j) : (store.served r).slot j = store.slot j := by
  have outside : Cell.slot j ∉ writes r := by
    intro written
    cases r with
    | create n name =>
        obtain rfl := Cell.slot.inj written
        exact other rfl
    | delete n =>
        obtain rfl := Cell.slot.inj written
        exact other rfl
    | select n => cases written
    | query => cases written
  exact (served_within r).unchanged store (.slot j) outside

/-- Requests whose footprints are apart can be served in either order. -/
theorem served_comm_of_apart (apart : ∀ c ∈ writes r, c ∉ reads q ∪ writes q)
    (apart' : ∀ c ∈ writes q, c ∉ reads r) (store : RecipeStore) :
    (store.served q).served r = (store.served r).served q :=
  (served_within r).commute RecipeStore.cell_injective (served_within q) apart apart' store

/-- A select that succeeds lets the slot be deleted that was selected before it. -/
theorem select_delete_comm_iff {i : Fin RECIPE_SLOT_MAX}
    (selected : store.current = ((i : Nat) : Int) → (store.slot i).used ≠ 0)
    (used : (store.slot j).used ≠ 0) (other : i ≠ j) :
    (store.served (.delete i)).served (.select j) = (store.served (.select j)).served (.delete i) ↔
      store.current ≠ ((i : Nat) : Int) := by
  have apart : (Request.delete i : RecipeRequest).slot ≠ some j := fun same => other (Option.some.inj same)
  have later : ((store.served (.delete i)).slot j).used ≠ 0 := by
    rw [slot_served_of_ne apart]
    exact used
  have moved : ((j : Nat) : Int) ≠ ((i : Nat) : Int) :=
    fun equal => other (Fin.ext (Int.ofNat.inj equal).symm)
  rw [served_select later, served_select used]
  by_cases unused : (store.slot i).used = 0
  · have kept := @served_delete_refused { store with current := ((j : Nat) : Int) } i (.inl unused)
    rw [served_delete_refused (.inl unused), kept]
    exact iff_of_true rfl fun current => selected current unused
  · have emptied := @served_delete { store with current := ((j : Nat) : Int) } i unused moved
    rw [emptied]
    by_cases current : store.current = ((i : Nat) : Int)
    · -- before the select the delete is refused, after it the slot is emptied
      rw [served_delete_refused (.inr current)]
      refine iff_of_false ?_ (not_not_intro current)
      intro same
      have slots := congrArg (fun s : RecipeStore => (s.slot i).used) same
      rw [RecipeStore.slot_setSlot_self] at slots
      exact unused slots
    · rw [served_delete unused current]
      exact iff_of_true rfl current

/-- The second of two selects that succeed decides the selection. -/
theorem select_select_comm_iff {i : Fin RECIPE_SLOT_MAX} (used : (store.slot j).used ≠ 0) (other : i ≠ j) :
    (store.served (.select i)).served (.select j) = (store.served (.select j)).served (.select i) ↔
      (store.slot i).used = 0 := by
  have apart : (Request.select i : RecipeRequest).slot ≠ some j := fun same => other (Option.some.inj same)
  have later : ((store.served (.select i)).slot j).used ≠ 0 := by
    rw [slot_served_of_ne apart]
    exact used
  rw [served_select later, served_select used]
  by_cases unused : (store.slot i).used = 0
  · have kept := @served_select_unused { store with current := ((j : Nat) : Int) } i unused
    rw [served_select_unused unused, kept]
    exact iff_of_true rfl unused
  · have moved := @served_select { store with current := ((j : Nat) : Int) } i unused
    rw [served_select unused, moved]
    refine iff_of_false ?_ unused
    intro same
    have currents : ((j : Nat) : Int) = ((i : Nat) : Int) := congrArg RecipeStore.current same
    exact other (Fin.ext (Int.ofNat.inj currents).symm)

/-- A query before a select that succeeds sees the selection before it. -/
theorem select_query_comm_iff (used : (store.slot j).used ≠ 0) :
    (store.served .query).served (.select j) = (store.served (.select j)).served .query ↔
      store.current = ((j : Nat) : Int) := by
  have later : ((store.served .query).slot j).used ≠ 0 := used
  rw [served_select later, served_select used]
  constructor
  · intro same
    exact congrArg RecipeStore.lastQueryResult same
  · intro current
    simp [RecipeStore.served, current]

/-- A select and another request for another slot can be served in either order unless the select
    overtakes the request. -/
theorem select_comm_iff
    (selected : ∀ n : Fin RECIPE_SLOT_MAX, store.current = ((n : Nat) : Int) → (store.slot n).used ≠ 0)
    (other : q.slot ≠ some j) :
    (store.served q).served (.select j) = (store.served (.select j)).served q ↔
      ¬Overtakes store (.select j) q := by
  by_cases unused : (store.slot j).used = 0
  · have later : ((store.served q).slot j).used = 0 := by
      rw [slot_served_of_ne other]
      exact unused
    rw [served_select_unused unused, served_select_unused later]
    refine iff_of_true rfl ?_
    intro overtakes
    cases q with
    | create n name => exact overtakes
    | delete n => exact overtakes.1 unused
    | select n => exact overtakes.1 unused
    | query => exact overtakes.1 unused
  · cases q with
    | create n name =>
        have apart : Cell.slot n ≠ .slot j := fun same => other (congrArg some (Cell.slot.inj same))
        refine iff_of_true ?_ not_false
        apply served_comm_of_apart
        · simp [reads, writes]
        · simp [reads, writes, apart]
    | delete i =>
        have apart : i ≠ j := fun same => other (congrArg some same)
        rw [select_delete_comm_iff (selected i) unused apart, Overtakes, not_and]
        exact (imp_iff_right unused).symm
    | select i =>
        have apart : i ≠ j := fun same => other (congrArg some same)
        rw [select_select_comm_iff unused apart, Overtakes, not_and, not_not]
        exact (imp_iff_right unused).symm
    | query =>
        rw [select_query_comm_iff unused, Overtakes, not_and, not_not]
        exact (imp_iff_right unused).symm

/-- Only a select overtakes. -/
theorem Overtakes.exists_select (overtakes : Overtakes store r q) : ∃ j, r = .select j := by
  cases r with
  | create n name => cases overtakes
  | delete n => cases overtakes
  | select j => exact ⟨j, rfl⟩
  | query => cases overtakes

theorem Overtakes.of_select (overtakes : Overtakes store q (.select j)) :
    Overtakes store (.select j) q := by
  cases q with
  | create n name => cases overtakes
  | delete n => cases overtakes
  | select n => exact ⟨overtakes.2, overtakes.1⟩
  | query => cases overtakes

/-- A slot is outside of the footprint of the requests that do not name it. -/
theorem slot_outside {n : Fin RECIPE_SLOT_MAX} (other : q.slot ≠ some n) :
    Cell.slot n ∉ reads q ∪ writes q := by
  have apart {m : Fin RECIPE_SLOT_MAX} (named : q.slot = some m) : Cell.slot n ≠ .slot m := by
    intro same
    rw [Cell.slot.inj same] at other
    exact other named
  cases q with
  | create m name => simpa [reads, writes] using apart rfl
  | delete m => simpa [reads, writes] using apart rfl
  | select m => simpa [reads, writes] using apart rfl
  | query => simp [reads, writes]

/-- Only selects write what other requests read. -/
theorem writes_apart (noSelect : ∀ j, r ≠ .select j) (noQueries : r = .query → q ≠ .query)
    (other : ∀ n, r.slot = some n → q.slot ≠ some n) : ∀ c ∈ writes r, c ∉ reads q ∪ writes q := by
  cases r with
  | create n name =>
      rintro c rfl
      exact slot_outside (other n rfl)
  | delete n =>
      rintro c rfl
      exact slot_outside (other n rfl)
  | select n => exact absurd rfl (noSelect n)
  | query =>
      rintro c rfl
      cases q with
      | create m name => simp [reads, writes]
      | delete m => simp [reads, writes]
      | select m => simp [reads, writes]
      | query => exact absurd rfl (noQueries rfl)

/-- Requests other than selects can be served in either order. -/
theorem served_comm_of_no_select (noSelect : ∀ j, r ≠ .select j) (noSelect' : ∀ j, q ≠ .select j)
    (other : ∀ n, r.slot = some n → q.slot ≠ some n) :
    (store.served r).served q = (store.served q).served r := by
  by_cases queries : r = .query ∧ q = .query
  · rw [queries.1, queries.2]
  · have apart := writes_apart noSelect (fun first second => queries ⟨first, second⟩) other
    have apart' := writes_apart noSelect' (fun first second => queries ⟨second, first⟩)
      fun n named named' => other n named' named
    apply Eq.symm
    apply served_comm_of_apart apart
    intro c written read
    exact apart' c written (.inl read)

/-- Two requests that do not name one slot can be served in either order unless one overtakes the
    other. -/
theorem served_comm_iff
    (selected : ∀ n : Fin RECIPE_SLOT_MAX, store.current = ((n : Nat) : Int) → (store.slot n).used ≠ 0)
    (other : ∀ n, r.slot = some n → q.slot ≠ some n) :
    (store.served r).served q = (store.served q).served r ↔
      ¬(Overtakes store r q ∨ Overtakes store q r) := by
  by_cases first : ∃ j, r = .select j
  · obtain ⟨j, rfl⟩ := first
    rw [or_iff_left_of_imp Overtakes.of_select, eq_comm]
    exact select_comm_iff selected (other j rfl)
  · by_cases second : ∃ j, q = .select j
    · obtain ⟨j, rfl⟩ := second
      rw [or_iff_right_of_imp Overtakes.of_select]
      exact select_comm_iff selected fun named => other j named rfl
    · refine iff_of_true (served_comm_of_no_select (not_exists.mp first) (not_exists.mp second) other) ?_
      rintro (overtakes | overtakes)
      · exact first overtakes.exists_select
      · exact second overtakes.exists_select

end Order

section Commands

variable {store : RecipeStore} {s : RecipeCatalogue} {a b : Command}

theorem slotOf_eq_some {number : Int} {n : Fin RECIPE_SLOT_MAX} (slot : slotOf number = some n) :
    number = ((n : Nat) : Int) := by
  rcases number_cases number with ⟨noSlot, _⟩ | ⟨m, rfl⟩
  · rw [noSlot] at slot
    cases slot
  · rw [slotOf_natCast] at slot
    rw [Option.some.inj slot]

/-- The slot of a request is the one whose number the command names. -/
theorem number_of_slot {r : RecipeRequest} {n : Fin RECIPE_SLOT_MAX} (asked : request a = some r)
    (named : r.slot = some n) : number a = some ((n : Nat) : Int) := by
  have found {number : Int} {f : Fin RECIPE_SLOT_MAX → RecipeRequest}
      (slot : ∀ m, (f m).slot = some m) (asked : (slotOf number).map f = some r) :
      some number = some ((n : Nat) : Int) := by
    obtain ⟨m, slotFound, rfl⟩ := Option.map_eq_some_iff.mp asked
    rw [slot m] at named
    rw [slotOf_eq_some slotFound, Option.some.inj named]
  match a, asked with
  | ⟨⟨0, _⟩, c⟩, asked => exact found (fun _ => rfl) asked
  | ⟨⟨1, _⟩, c⟩, asked => exact found (fun _ => rfl) asked
  | ⟨⟨2, _⟩, c⟩, asked => exact found (fun _ => rfl) asked
  | ⟨⟨3, _⟩, c⟩, asked =>
      obtain rfl : Request.query = r := Option.some.inj asked
      cases named

theorem Represents.current_used (represents : Represents store s) (n : Fin RECIPE_SLOT_MAX)
    (current : store.current = ((n : Nat) : Int)) : (store.slot n).used ≠ 0 := by
  have chosen := (represents.current_eq_iff n).mp current
  obtain ⟨name, held⟩ := Option.isSome_iff_exists.mp (s.selectedInUse n chosen)
  exact represents.used_of_held held

theorem after_comm_iff (represents : Represents store s) (other : ¬NameSameNumber a b) :
    (store.after (request a)).after (request b) = (store.after (request b)).after (request a) ↔
      ¬OrderMatters store a b := by
  cases asked : request a with
  | none =>
      refine iff_of_true rfl ?_
      rintro ⟨r, q, asked', _⟩
      rw [asked] at asked'
      cases asked'
  | some r =>
      cases asked' : request b with
      | none =>
          refine iff_of_true rfl ?_
          rintro ⟨r, q, _, asked'', _⟩
          rw [asked'] at asked''
          cases asked''
      | some q =>
          have apart : ∀ n, r.slot = some n → q.slot ≠ some n := by
            intro n named named'
            exact other ⟨_, number_of_slot asked named, number_of_slot asked' named'⟩
          have clash : OrderMatters store a b ↔ Overtakes store r q ∨ Overtakes store q r := by
            simp [OrderMatters, asked, asked']
          rw [clash]
          exact served_comm_iff represents.current_used apart

/-- After any queue of commands on a fresh store, dispatching a command twice leaves the store that
    dispatching it once leaves; two commands that do not name one slot number leave the same store in
    either order, stale bytes included, except where their order is listed to matter. -/
theorem commands_repeat_and_commute (commands : List Command) :
    ∃ store lines, dispatchQueue commands = .ok (.ok (store, lines)) ∧
      (∀ a, ∃ after lines' lines'',
        dispatchQueue (commands ++ [a]) = .ok (.ok (after, lines')) ∧
          dispatchQueue (commands ++ [a, a]) = .ok (.ok (after, lines''))) ∧
      ∀ a b, ¬NameSameNumber a b → ∃ afterAB afterBA lines' lines'',
        dispatchQueue (commands ++ [a, b]) = .ok (.ok (afterAB, lines')) ∧
          dispatchQueue (commands ++ [b, a]) = .ok (.ok (afterBA, lines'')) ∧
          (afterAB = afterBA ↔ ¬OrderMatters store a b) := by
  obtain ⟨store, lines, ran, represents⟩ := run_represents Represents.fresh commands
  have dispatched : dispatchQueue commands = .ok (.ok (store, lines)) := by
    rw [dispatchQueue, SumInstance.dispatchAll_eq_run, ran]
  have one (a : Command) : ∃ lines', dispatchQueue (commands ++ [a]) =
      .ok (.ok (store.after (request a), lines')) := by
    obtain ⟨line, done⟩ := step_after represents a
    exact ⟨_, dispatchQueue_append dispatched (StepMachine.run_cons_of_ok done rfl)⟩
  have two (a b : Command) : ∃ lines', dispatchQueue (commands ++ [a, b]) =
      .ok (.ok ((store.after (request a)).after (request b), lines')) := by
    obtain ⟨line, done⟩ := step_after represents a
    obtain ⟨line', done'⟩ := step_after (after_represents represents (request a)) b
    have both := StepMachine.run_cons_of_ok done (StepMachine.run_cons_of_ok done' (StepMachine.run_nil _))
    exact ⟨_, dispatchQueue_append dispatched both⟩
  refine ⟨store, lines, dispatched, ?_, ?_⟩
  · intro a
    obtain ⟨lines', once⟩ := one a
    obtain ⟨lines'', twice⟩ := two a a
    rw [after_after] at twice
    exact ⟨_, lines', lines'', once, twice⟩
  · intro a b other
    obtain ⟨lines', ab⟩ := two a b
    obtain ⟨lines'', ba⟩ := two b a
    exact ⟨_, _, lines', lines'', ab, ba, after_comm_iff represents other⟩

end Commands

end RecipeParam

end GenericSumType
