/-
Module: GenericSumType.Proofs.RecipeTranscript
Layer: Proofs
Purpose: The recipe handlers print the replies of the catalogue, and the replies are a journal: they tell
  every change to the store.
Imports: GenericSumType.Spec.RecipeTranscript, GenericSumType.Proofs.RecipeStore
Trusted boundary: none
Main exports: step_reply, reported, dispatchQueue_replies, queue_prints_replies
Open obligations: none
-/
import GenericSumType.Spec.RecipeTranscript
import GenericSumType.Proofs.RecipeStore

namespace GenericSumType

namespace RecipeParam

open CString

section Handlers

variable {store : RecipeStore} {s : RecipeCatalogue}

/-- `on_create` checks the number, copies the name and prints what it stored. -/
theorem onCreate_reply (c : CmdRecipeCreate) (store : RecipeStore) :
    onCreate c store = .ok (store.replay (replyCreate c), (replyCreate c).line) := by
  rcases c with ⟨number, name⟩
  rcases number_cases number with ⟨noSlot, invalid⟩ | ⟨n, rfl⟩
  · rw [onCreate, replyCreate, noSlot]
    simp only [invalid]
    rfl
  · rw [replyCreate, slotOf_natCast]
    have reachable : RECIPE_NAME_MAX - 1 ≤ name.bytes.length := by
      rw [name.length]
      exact Nat.sub_le _ _
    obtain ⟨copied, copy, terminate⟩ :=
      @strncpy_then_terminate RECIPE_NAME_MAX (RECIPE_NAME_MAX - 1) (store.slot n).name _ rfl reachable
    have shown : readString
        (CharArray.ofText ((text name.bytes).take (RECIPE_NAME_MAX - 1))
          (RecipeName.ofArray name).fits.le).bytes = .ok (RecipeName.ofArray name).chars :=
      readString_padded (RecipeName.ofArray name).noNul (RecipeName.ofArray name).fits
    rw [onCreate]
    simp only [slotIndexValid_natCast, arrayIndex_natCast, ok_bind, copy, terminate, shown]
    rfl

/-- `on_delete` frees a slot that is in use and not selected, and says which of the two fails. -/
theorem onDelete_reply (represents : Represents store s) (c : CmdRecipeDelete) :
    onDelete c store = .ok (store.replay (replyDelete s c), (replyDelete s c).line) := by
  rcases c with ⟨number⟩
  rcases number_cases number with ⟨noSlot, invalid⟩ | ⟨n, rfl⟩
  · rw [onDelete, notInUse_invalid invalid, ok_bind, replyDelete, noSlot]
    rfl
  · simp only [replyDelete, slotOf_natCast]
    rw [onDelete, notInUse_natCast, ok_bind]
    cases held : s.names n with
    | none =>
        have unused := (represents.used_eq_zero_iff n).mpr held
        rw [if_pos (beq_iff_eq.mpr unused)]
        rfl
    | some name =>
        have used := represents.used_of_held held
        rw [if_neg (beq_iff_eq.not.mpr used)]
        dsimp only
        by_cases chosen : s.selected = some n
        · rw [if_pos chosen, if_pos ((represents.current_eq_iff n).mpr chosen)]
          rfl
        · have current := (represents.current_eq_iff n).not.mpr chosen
          have cleared : (store.slot n).name.set 0 0 = .ok (store.slot n).emptied.name :=
            if_pos (Nat.zero_lt_succ _)
          have done : store.replay (.deleted n) = store.setSlot n (store.slot n).emptied :=
            served_delete used current
          rw [if_neg chosen, done, if_neg current, arrayIndex_natCast, ok_bind, cleared]
          rfl

/-- `on_select` selects a slot that is in use and prints its name. -/
theorem onSelect_reply (represents : Represents store s) (c : CmdRecipeSelect) :
    onSelect c store = .ok (store.replay (replySelect s c), (replySelect s c).line) := by
  rcases c with ⟨number⟩
  rcases number_cases number with ⟨noSlot, invalid⟩ | ⟨n, rfl⟩
  · rw [onSelect, notInUse_invalid invalid, ok_bind, replySelect, noSlot]
    rfl
  · simp only [replySelect, slotOf_natCast]
    rw [onSelect, notInUse_natCast, ok_bind]
    cases held : s.names n with
    | none =>
        have unused := (represents.used_eq_zero_iff n).mpr held
        rw [if_pos (beq_iff_eq.mpr unused)]
        rfl
    | some name =>
        have used := represents.used_of_held held
        have done : store.replay (.selected n name) = { store with current := ((n : Nat) : Int) } :=
          served_select used
        dsimp only
        rw [done, if_neg (beq_iff_eq.not.mpr used)]
        simp only [arrayIndex_natCast, ok_bind, represents.readString_slot held]
        rfl

theorem replyQuery_unselected (chosen : s.selected = none) : replyQuery s = .nothingSelected := by
  rw [replyQuery]
  split
  · rfl
  · simp_all

theorem replyQuery_selected {n : Fin RECIPE_SLOT_MAX} {name : RecipeName} (chosen : s.selected = some n)
    (held : s.names n = some name) : replyQuery s = .current n name := by
  rw [replyQuery]
  split
  · simp_all
  · simp_all

/-- `on_query` prints the selected slot, which is always in use. -/
theorem onQuery_reply (represents : Represents store s) (c : CmdRecipeQuery) :
    onQuery c store = .ok (store.replay (replyQuery s), (replyQuery s).line) := by
  rw [onQuery]
  cases chosen : s.selected with
  | none =>
      have unselected : store.current = -1 := by rw [represents.current, chosen, slotNumber]
      rw [replyQuery_unselected chosen, if_neg (by simp [unselected])]
      rfl
  | some n =>
      have selected := (represents.current_eq_iff n).mpr chosen
      obtain ⟨name, held⟩ := Option.isSome_iff_exists.mp (s.selectedInUse n chosen)
      have done : store.replay (.current n name) = { store with lastQueryResult := store.current } := rfl
      rw [replyQuery_selected chosen held, done]
      simp only [selected, arrayIndex_natCast, ok_bind, if_pos (Int.natCast_nonneg _),
        represents.readString_slot held]
      rfl

/-- Every handler prints the reply of the catalogue and does what it says. -/
theorem step_reply (represents : Represents store s) (c : Command) :
    handlers.step store c = .ok (store.replay (reply s c), (reply s c).line) :=
  match c with
  | ⟨⟨0, _⟩, c⟩ => onCreate_reply c store
  | ⟨⟨1, _⟩, c⟩ => onDelete_reply represents c
  | ⟨⟨2, _⟩, c⟩ => onSelect_reply represents c
  | ⟨⟨3, _⟩, c⟩ => onQuery_reply represents c

end Handlers

section Queues

/-- The catalogue answers for the store in every step, and the answer tells the store that follows. -/
theorem reported : Transcript.Reported handlers.step Reply.line RecipeStore.replay reply
    (fun s c => s.serve (request c)) Represents := by
  intro store s c represents
  have done := step_reply represents c
  refine ⟨done, ?_⟩
  -- the store that the request leaves is the one that the reply tells
  obtain ⟨line, after⟩ := step_after represents c
  rw [done] at after
  rw [(Prod.mk.inj (Except.ok.inj after)).1]
  exact after_represents represents (request c)

theorem dispatchQueue_replies (commands : List Command) :
    dispatchQueue commands =
      .ok (.ok ((replies commands).foldl RecipeStore.replay freshStore,
        (replies commands).map Reply.line)) := by
  rw [dispatchQueue, SumInstance.dispatchAll_eq_run,
    (Transcript.run_reported reported Represents.fresh commands).1]
  rfl

/-- The lines that a queue prints on a fresh store are the replies of the catalogue, one for each command,
    and doing what the replies say to a fresh store leads to the same store. -/
theorem queue_prints_replies (commands : List Command) :
    dispatchQueue commands =
        .ok (.ok ((replies commands).foldl RecipeStore.replay freshStore,
          (replies commands).map Reply.line)) ∧
      (replies commands).length = commands.length ∧
      Represents ((replies commands).foldl RecipeStore.replay freshStore) (catalogueAfter commands) := by
  refine ⟨dispatchQueue_replies commands, Transcript.length_reports _ _ _ commands, ?_⟩
  rw [catalogueAfter, List.foldl_map]
  exact (Transcript.run_reported reported Represents.fresh commands).2

end Queues

end RecipeParam

end GenericSumType
