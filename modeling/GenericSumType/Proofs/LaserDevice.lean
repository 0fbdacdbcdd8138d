/-
Module: GenericSumType.Proofs.LaserDevice
Layer: Proofs
Purpose: A queue of commands leaves the state that the last writes to each field describe.  From this
  follow the independence of the four groups, and exactly which queues keep all fields in range.
Imports: GenericSumType.Proofs.CommandLoop, GenericSumType.Spec.LaserDevice
Trusted boundary: none
Main exports: dispatchQueue_eq, last_effective_commands_decide, states_in_range_iff,
  printStart_leaves_range
Open obligations: none
-/
import GenericSumType.Proofs.CommandLoop
import GenericSumType.Spec.LaserDevice

namespace GenericSumType

namespace LaserDevice

open CString LastWrite

section Step

theorem stateAfter_cons (st : LaserDeviceState) (c : Command) (commands : List Command) :
    stateAfter st (c :: commands) = stateAfter (stateAfter st [c]) commands := by
  simp only [stateAfter, register_cons, register_nil]

/-- A state after a single command. -/
theorem stateAfter_singleton (st : LaserDeviceState) (c : Command) :
    stateAfter st [c] =
      { printing := (writes c).printing.getD st.printing
        printMode := (writes c).printMode.getD st.printMode
        running := (writes c).running.getD st.running
        guideOn := (writes c).guideOn.getD st.guideOn
        guideKind := (writes c).guideKind.getD st.guideKind
        errorActive := (writes c).errorActive.getD st.errorActive } := by
  simp only [stateAfter, register_cons, register_nil]

/-- The guide handler looks up the name of a kind only when there is one. -/
theorem onGuideStart_eq (c : CmdGuideStart) (st : LaserDeviceState) :
    ∃ line, onGuideStart c st =
      .ok (if GuideKind c.kind then { st with guideOn := 1, guideKind := c.kind } else st, line) := by
  rw [onGuideStart]
  by_cases valid : GuideKind c.kind
  · have inside : ¬(c.kind < 0 ∨ c.kind > 2) := by
      have bounds := valid
      rw [GuideKind] at bounds
      omega
    have index : arrayIndex 3 c.kind = .ok ⟨c.kind.toNat, by have := valid.2; omega⟩ := by
      apply dif_pos
      rw [GuideKind] at valid
      omega
    rw [if_neg inside, if_pos valid, index]
    exact ⟨_, rfl⟩
  · have outside : c.kind < 0 ∨ c.kind > 2 := by
      rw [GuideKind] at valid
      omega
    rw [if_pos outside, if_neg valid]
    exact ⟨_, rfl⟩

/-- Each handler makes the writes of its command. -/
theorem step_eq (st : LaserDeviceState) (c : Command) :
    ∃ line, handlers.step st c = .ok (stateAfter st [c], line) := by
  rw [stateAfter_singleton]
  match c with
  | ⟨⟨0, _⟩, _⟩ | ⟨⟨1, _⟩, _⟩ | ⟨⟨2, _⟩, _⟩ | ⟨⟨3, _⟩, _⟩ | ⟨⟨5, _⟩, _⟩ => exact ⟨_, rfl⟩
  | ⟨⟨4, _⟩, c⟩ =>
      obtain ⟨line, done⟩ := onGuideStart_eq c st
      refine ⟨line, done.trans ?_⟩
      simp only [writes, commandWrites]
      by_cases valid : GuideKind (show CmdGuideStart from c).kind
      · rw [if_pos valid, if_pos valid]
        rfl
      · rw [if_neg valid, if_neg valid]
        rfl

theorem foldl_stateAfter (st : LaserDeviceState) (commands : List Command) :
    commands.foldl (fun t c => stateAfter t [c]) st = stateAfter st commands := by
  induction commands generalizing st with
  | nil => rfl
  | cons c commands ih => rw [List.foldl_cons, ih, ← stateAfter_cons]

/-- A queue never fails and leaves the state that its last writes describe. -/
theorem dispatchQueue_eq (st : LaserDeviceState) (commands : List Command) :
    ∃ lines, dispatchQueue st commands = .ok (.ok (stateAfter st commands, lines)) := by
  have follows (s t : LaserDeviceState) (c : Command) (same : s = t) :
      ∃ s' line, handlers.step s c = .ok (s', line) ∧ s' = stateAfter t [c] := by
    subst same
    obtain ⟨line, done⟩ := step_eq s c
    exact ⟨_, line, done, rfl⟩
  obtain ⟨st', lines, ran, final⟩ := StepMachine.run_follows follows (Eq.refl st) commands
  refine ⟨lines, ?_⟩
  rw [dispatchQueue, SumInstance.dispatchAll_eq_run, ran, final, foldl_stateAfter]

end Step

section Groups

/-- A command writes to the fields of its group only. -/
theorem writes_within (c : Command) : (writes c).Within (groupOf c) := by
  match c with
  | ⟨⟨0, _⟩, _⟩ | ⟨⟨1, _⟩, _⟩ | ⟨⟨2, _⟩, _⟩ | ⟨⟨3, _⟩, _⟩ | ⟨⟨5, _⟩, _⟩ =>
      constructor <;> intro x written <;> first | rfl | cases written
  | ⟨⟨4, _⟩, c⟩ =>
      simp only [writes, commandWrites]
      by_cases valid : GuideKind (show CmdGuideStart from c).kind
      · rw [if_pos valid]
        constructor <;> intro x written <;> first | rfl | cases written
      · rw [if_neg valid]
        constructor <;> intro x written <;> cases written

/-- A field depends on the commands of one group only. -/
theorem register_eq_of_group {field : Writes → Option Int} {g : Group}
    (within : ∀ c x, field (writes c) = some x → groupOf c = g) (x : Int)
    {commands other : List Command} (same : ofGroup g other = ofGroup g commands) :
    register (fun c => field (writes c)) x other = register (fun c => field (writes c)) x commands := by
  refine register_eq_of_filter ?_ x same
  intro c v written
  exact decide_eq_true (within c v written)

theorem stateAfter_eq_of_groups {commands other : List Command}
    (same : ∀ g, ofGroup g other = ofGroup g commands) (st : LaserDeviceState) :
    stateAfter st other = stateAfter st commands := by
  rw [stateAfter, stateAfter]
  congr 1
  · exact register_eq_of_group (fun c => (writes_within c).printing) _ (same .print)
  · exact register_eq_of_group (fun c => (writes_within c).printMode) _ (same .print)
  · exact register_eq_of_group (fun c => (writes_within c).running) _ (same .run)
  · exact register_eq_of_group (fun c => (writes_within c).guideOn) _ (same .guide)
  · exact register_eq_of_group (fun c => (writes_within c).guideKind) _ (same .guide)
  · exact register_eq_of_group (fun c => (writes_within c).errorActive) _ (same .error)

theorem stateAfter_guideStart_invalid {kind : Int} (invalid : ¬GuideKind kind)
    (st : LaserDeviceState) : stateAfter st [guideStart kind] = st := by
  have nothing : writes (guideStart kind) = {} := if_neg invalid
  rw [stateAfter_singleton, nothing]
  rfl

/-- The final state is given by the last effective command of each group: a guide start with a kind that
    the device does not have is no effective command, and the order of commands of different groups does
    not matter. -/
theorem last_effective_commands_decide (st : LaserDeviceState) (commands : List Command) :
    (∃ lines, dispatchQueue st commands = .ok (.ok (stateAfter st commands, lines))) ∧
      (∀ kind, ¬GuideKind kind →
        ∃ lines, dispatchQueue st [guideStart kind] = .ok (.ok (st, lines))) ∧
      (∀ other, (∀ g, ofGroup g other = ofGroup g commands) →
        ∃ lines, dispatchQueue st other = .ok (.ok (stateAfter st commands, lines))) := by
  refine ⟨dispatchQueue_eq st commands, ?_, ?_⟩
  · intro kind invalid
    obtain ⟨lines, done⟩ := dispatchQueue_eq st [guideStart kind]
    rw [stateAfter_guideStart_invalid invalid] at done
    exact ⟨lines, done⟩
  · intro other same
    obtain ⟨lines, done⟩ := dispatchQueue_eq st other
    rw [stateAfter_eq_of_groups same] at done
    exact ⟨lines, done⟩

end Groups

section Ranges

/-- The values of a command are the documented ones exactly when all that it writes is in range.  Only
    the guide handler checks its value itself. -/
theorem documented_iff (c : Command) : Documented c ↔ (writes c).InRange := by
  match c with
  | ⟨⟨0, _⟩, c⟩ =>
      constructor
      · intro documented
        constructor <;> intro x written <;> cases written
        · exact .inr rfl
        · exact documented
      · intro inRange
        exact inRange.printMode _ rfl
  | ⟨⟨1, _⟩, _⟩ | ⟨⟨3, _⟩, _⟩ | ⟨⟨5, _⟩, _⟩ =>
      apply iff_of_true trivial
      constructor <;> intro x written <;> cases written
      exact .inl rfl
  | ⟨⟨2, _⟩, c⟩ =>
      constructor
      · intro documented
        constructor <;> intro x written <;> cases written
        exact documented
      · intro inRange
        exact inRange.running _ rfl
  | ⟨⟨4, _⟩, c⟩ =>
      apply iff_of_true trivial
      simp only [writes, commandWrites]
      by_cases valid : GuideKind (show CmdGuideStart from c).kind
      · rw [if_pos valid]
        constructor <;> intro x written <;> cases written
        · exact .inr rfl
        · exact valid
      · rw [if_neg valid]
        constructor <;> intro x written <;> cases written

theorem inRange_stateAfter {st : LaserDeviceState} (inRange : InRange st) {commands : List Command}
    (documented : ∀ c ∈ commands, Documented c) : InRange (stateAfter st commands) := by
  have written (c : Command) (member : c ∈ commands) : (writes c).InRange :=
    (documented_iff c).mp (documented c member)
  exact
    { printing := register_invariant inRange.printing fun c member => (written c member).printing
      printMode := register_invariant inRange.printMode fun c member => (written c member).printMode
      running := register_invariant inRange.running fun c member => (written c member).running
      guideOn := register_invariant inRange.guideOn fun c member => (written c member).guideOn
      guideKind := register_invariant inRange.guideKind fun c member => (written c member).guideKind
      errorActive :=
        register_invariant inRange.errorActive fun c member => (written c member).errorActive }

/-- What the last command wrote is what the state holds. -/
theorem writes_inRange_of_concat {st : LaserDeviceState} {commands : List Command} {c : Command}
    (inRange : InRange (stateAfter st (commands ++ [c]))) : (writes c).InRange := by
  have holds (field : Writes → Option Int) (x y : Int) (written : field (writes c) = some y) :
      register (fun c => field (writes c)) x (commands ++ [c]) = y := by
    rw [register_concat, written, Option.getD_some]
  exact
    { printing := fun x written => holds (·.printing) _ x written ▸ inRange.printing
      printMode := fun x written => holds (·.printMode) _ x written ▸ inRange.printMode
      running := fun x written => holds (·.running) _ x written ▸ inRange.running
      guideOn := fun x written => holds (·.guideOn) _ x written ▸ inRange.guideOn
      guideKind := fun x written => holds (·.guideKind) _ x written ▸ inRange.guideKind
      errorActive := fun x written => holds (·.errorActive) _ x written ▸ inRange.errorActive }

/-- All states of a run that starts in range are in range exactly when the print kinds and run modes of
    the queue are documented ones. -/
theorem states_in_range_iff {st : LaserDeviceState} (inRange : InRange st)
    (commands : List Command) :
    (∀ front, front <+: commands →
      ∃ st' lines, dispatchQueue st front = .ok (.ok (st', lines)) ∧ InRange st') ↔
      ∀ c ∈ commands, Documented c := by
  constructor
  · intro reached c member
    obtain ⟨before, after, split⟩ := List.append_of_mem member
    have front : before ++ [c] <+: commands := ⟨after, by simp [split]⟩
    obtain ⟨st', lines, done, inRange'⟩ := reached _ front
    obtain ⟨lines', final⟩ := dispatchQueue_eq st (before ++ [c])
    rw [final] at done
    obtain ⟨rfl, _⟩ := Prod.mk.inj (Except.ok.inj (Except.ok.inj done))
    exact (documented_iff c).mpr (writes_inRange_of_concat inRange')
  · intro documented front isFront
    obtain ⟨lines, final⟩ := dispatchQueue_eq st front
    refine ⟨_, lines, final, ?_⟩
    exact inRange_stateAfter inRange fun c member => documented c (isFront.subset member)

theorem freshState_inRange : InRange freshState where
  printing := .inl rfl
  printMode := .inl rfl
  running := .inl rfl
  guideOn := .inl rfl
  guideKind := by decide
  errorActive := .inl rfl

theorem documented_queue_stays_in_range :
    InRange freshState ∧
      ∀ front, front <+: [printStart 1, guideStart 99] →
        ∃ st' lines, dispatchQueue freshState front = .ok (.ok (st', lines)) ∧ InRange st' := by
  refine ⟨freshState_inRange, ?_⟩
  apply (states_in_range_iff freshState_inRange [printStart 1, guideStart 99]).mpr
  intro c member
  rcases List.mem_pair.mp member with rfl | rfl
  · exact .inr rfl
  · trivial

/-- `on_print_start` stores a kind that does not exist. -/
theorem printStart_leaves_range :
    InRange freshState ∧
      ∃ st' lines, dispatchQueue freshState [printStart 7] = .ok (.ok (st', lines)) ∧
        ¬InRange st' := by
  refine ⟨freshState_inRange, ?_⟩
  obtain ⟨lines, final⟩ := dispatchQueue_eq freshState [printStart 7]
  refine ⟨_, lines, final, ?_⟩
  intro inRange
  have mode : Flag 7 := inRange.printMode
  exact absurd mode (by decide)

end Ranges

end LaserDevice

end GenericSumType
