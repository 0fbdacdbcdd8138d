/-
Module: GenericSumType.Proofs.RecordOwnership
Layer: Proofs
Purpose: Log records own their strings exclusively.  Each allowed operation succeeds and keeps the
  ownership invariant of `Spec.RecordLife`; by induction every program of allowed operations does.
Imports: GenericSumType.Spec.RecordLife, GenericSumType.Proofs.CoproductRefinement
Trusted boundary: none
Main exports: exec_keeps, keeps_of_reached, records_own_their_strings
Open obligations: none
-/
import GenericSumType.Spec.RecordLife
import GenericSumType.Proofs.CoproductRefinement

namespace GenericSumType

namespace ResourceDemo

open BlockHeap (CStr Memory Exclusive)

variable {Var Block : Type} [DecidableEq Var] [DecidableEq Block]

/-! ### The operations on coproduct values -/

omit [DecidableEq Block] in
theorem call_encode {t t' : Records Var Block}
    {op : Op (LogRecord.Payload (model Block)) Var (Memory Block) Unit}
    {b : CoproductObs (LogRecord.Payload (model Block)) Unit}
    (done : coproductStep .default (LogRecord.zeroValue (model Block)) t op = .ok (t', b)) :
    call (LogRecord.encodeState (model Block) t) op =
      .ok (LogRecord.encodeState (model Block) t') := by
  rw [call, SumInstance.step_encode .default done]
  rfl

theorem exec_newText (t : Records Var Block) (v : Var) (s : CStr) (b : Block) :
    exec (LogRecord.encodeState (model Block) t) (.newText v s b) =
      .ok (LogRecord.encodeState (model Block)
        { vars := Function.update t.vars v (some (textRecord (some b)))
          world := { t.world with next := b, blocks := t.world.blocks.insert b s.stored } }) :=
  call_encode (t := { t with
    world := { t.world with next := b, blocks := t.world.blocks.insert b s.stored } }) rfl

theorem exec_newNumber (t : Records Var Block) (v : Var) (n : Int) :
    exec (LogRecord.encodeState (model Block) t) (.newNumber v n) =
      .ok (LogRecord.encodeState (model Block)
        { t with vars := Function.update t.vars v (some (numberRecord n)) }) :=
  call_encode rfl

/-- The copy of a stored text is a new block with the same bytes. -/
theorem exec_copyText {t : Records Var Block} {dst src : Var} {p b : Block} {s : CStr}
    (source : t.vars src = some (textRecord (some p)))
    (stored : t.world.blocks.lookup p = some s.stored) :
    exec (LogRecord.encodeState (model Block) t) (.copy dst src b) =
      .ok (LogRecord.encodeState (model Block)
        { vars := Function.update t.vars dst (some (textRecord (some b)))
          world := { t.world with next := b, blocks := t.world.blocks.insert b s.stored } }) := by
  let ready : Records Var Block := { t with world := { t.world with next := b } }
  have dup : copyText ready.world { msg := some p } =
      ({ t.world with next := b, blocks := t.world.blocks.insert b s.stored },
        { msg := some b }) := by
    simp only [copyText, Memory.strdup_stored (m := ready.world) stored]
    rfl
  have handled : copyHandlers (textRecord (some p)).1 ready.world (textRecord (some p)).2 =
      ({ t.world with next := b, blocks := t.world.blocks.insert b s.stored },
        (textRecord (some b)).2) := dup
  apply call_encode (t := ready) (b := .analysed (textRecord (some p)) none)
  rw [coproductStep_callCopy .default (s := ready) source copyHandlers, handled]
  rfl

theorem exec_copyNumber {t : Records Var Block} {dst src : Var} {b : Block} {n : Int}
    (source : t.vars src = some (numberRecord n)) :
    exec (LogRecord.encodeState (model Block) t) (.copy dst src b) =
      .ok (LogRecord.encodeState (model Block)
        { vars := Function.update t.vars dst (some (numberRecord n))
          world := { t.world with next := b } }) := by
  let ready : Records Var Block := { t with world := { t.world with next := b } }
  exact call_encode (t := ready)
    (coproductStep_callCopy .default (s := ready) source copyHandlers)

theorem exec_destroyText {t : Records Var Block} {v : Var} {p : Option Block}
    (held : t.vars v = some (textRecord p)) :
    exec (LogRecord.encodeState (model Block) t) (.destroy v) =
      .ok (LogRecord.encodeState (model Block)
        { vars := Function.update t.vars v (some (textRecord none))
          world := t.world.free p }) :=
  call_encode (coproductStep_callDestroy .default held destroyHandlers)

theorem exec_destroyNumber {t : Records Var Block} {v : Var} {n : Int}
    (held : t.vars v = some (numberRecord n)) :
    exec (LogRecord.encodeState (model Block) t) (.destroy v) =
      .ok (LogRecord.encodeState (model Block)
        { t with vars := Function.update t.vars v (some (numberRecord n)) }) :=
  call_encode (coproductStep_callDestroy .default held destroyHandlers)

/-! ### The invariant -/

omit [DecidableEq Block] in
theorem textOwner_update (t : Records Var Block) (v : Var) (r : Record Block)
    (w : Memory Block) :
    textOwner { vars := Function.update t.vars v (some r), world := w } =
      Function.update (textOwner t) v (ownedBlock r) := by
  funext u
  by_cases same : u = v
  · subst u
    simp [textOwner]
  · simp [textOwner, Function.update_of_ne same]

omit [DecidableEq Var] in
/-- A record that is not alive owns nothing. -/
theorem textOwner_of_vacant {t : Records Var Block} {v : Var} {life : Life}
    (holds : HoldsLife t v life) (vacant : ¬ life.isAlive) : textOwner t v = none := by
  cases life with
  | absent =>
      have empty : t.vars v = none := holds
      rw [textOwner, empty]
      rfl
  | alive c => exact absurd trivial vacant
  | destroyed =>
      rcases holds with held | ⟨n, held⟩ <;> rw [textOwner, held] <;> rfl

omit [DecidableEq Var] in
/-- A variable keeps what it holds when it is not written and its text, if it has one, stays where it
    is. -/
theorem HoldsLife.frame {t t' : Records Var Block} {v : Var} {life : Life}
    (holds : HoldsLife t v life) (vars : t'.vars v = t.vars v)
    (texts : ∀ b s, textOwner t v = some b → t.world.blocks.lookup b = some s →
      t'.world.blocks.lookup b = some s) : HoldsLife t' v life := by
  cases life with
  | absent => exact vars.trans holds
  | destroyed =>
      rcases holds with held | ⟨n, held⟩
      · exact Or.inl (vars.trans held)
      · exact Or.inr ⟨n, vars.trans held⟩
  | alive c =>
      cases c with
      | number n => exact vars.trans holds
      | text s =>
          obtain ⟨b, held, stored⟩ := holds
          refine ⟨b, vars.trans held, texts b _ ?_ stored⟩
          rw [textOwner, held]
          rfl

/-- After one variable was written, the others keep what they hold. -/
theorem holds_update {t t' : Records Var Block} {life : Var → Life} {v : Var} {after : Life}
    (holds : ∀ u, HoldsLife t u (life u)) (mine : HoldsLife t' v after)
    (vars : ∀ u, u ≠ v → t'.vars u = t.vars u)
    (texts : ∀ u, u ≠ v → ∀ b s, textOwner t u = some b → t.world.blocks.lookup b = some s →
      t'.world.blocks.lookup b = some s) (u : Var) :
    HoldsLife t' u (Function.update life v after u) := by
  by_cases same : u = v
  · subst u
    rw [Function.update_self]
    exact mine
  · rw [Function.update_of_ne same]
    exact (holds u).frame (vars u same) (texts u same)

/-- Storing a text in a vacant variable. -/
theorem Keeps.storeText {t : Records Var Block} {life : Var → Life} (keeps : Keeps t life)
    {v : Var} {b : Block} {s : CStr} (vacant : ¬ (life v).isAlive) (fresh : b ∉ t.world.blocks) :
    Keeps
      { vars := Function.update t.vars v (some (textRecord (some b)))
        world := { t.world with next := b, blocks := t.world.blocks.insert b s.stored } }
      (Function.update life v (.alive (.text s))) where
  clean := keeps.clean
  exclusive := by
    rw [textOwner_update]
    exact keeps.exclusive.acquire (textOwner_of_vacant (keeps.holds v) vacant) fresh s.stored
  holds := by
    apply holds_update keeps.holds
    · exact ⟨b, Function.update_self v _ t.vars, Finmap.lookup_insert t.world.blocks⟩
    · intro u other
      exact Function.update_of_ne other _ t.vars
    · intro u _ c text owned stored
      have different : c ≠ b := by
        rintro rfl
        exact fresh (keeps.exclusive.live owned)
      dsimp only
      rw [Finmap.lookup_insert_of_ne _ different]
      exact stored

/-- Storing a number in a vacant variable, or writing a destroyed number back. -/
theorem Keeps.storeNumber {t : Records Var Block} {life : Var → Life} (keeps : Keeps t life)
    {v : Var} {n : Int} {after : Life} (nothing : textOwner t v = none) (b : Block)
    (mine : ∀ t' : Records Var Block, t'.vars v = some (numberRecord n) → HoldsLife t' v after) :
    Keeps
      { vars := Function.update t.vars v (some (numberRecord n))
        world := { t.world with next := b } }
      (Function.update life v after) where
  clean := keeps.clean
  exclusive := by
    rw [textOwner_update]
    have unchanged : Function.update (textOwner t) v (ownedBlock (numberRecord n)) = textOwner t := by
      have same : ownedBlock (numberRecord n) = textOwner t v := nothing.symm
      rw [same, Function.update_eq_self]
    rw [unchanged]
    exact keeps.exclusive
  holds := by
    apply holds_update keeps.holds
    · exact mine _ (Function.update_self v _ t.vars)
    · intro u other
      exact Function.update_of_ne other _ t.vars
    · intro u _ c text _ stored
      exact stored

/-- Destroying a text record, whether it still owns its block or not. -/
theorem Keeps.destroyText {t : Records Var Block} {life : Var → Life} (keeps : Keeps t life)
    {v : Var} {p : Option Block} (held : t.vars v = some (textRecord p)) :
    Keeps
      { vars := Function.update t.vars v (some (textRecord none))
        world := t.world.free p }
      (Function.update life v .destroyed) := by
  have owner : textOwner t v = p := by
    rw [textOwner, held]
    rfl
  cases p with
  | none =>
      have unchanged : Function.update t.vars v (some (textRecord none)) = t.vars := by
        rw [← held, Function.update_eq_self]
      rw [unchanged]
      refine ⟨keeps.clean, keeps.exclusive, ?_⟩
      apply holds_update keeps.holds
      · exact Or.inl held
      · intro u _
        rfl
      · intro u _ c text _ stored
        exact stored
  | some b =>
      have live := keeps.exclusive.live owner
      rw [Memory.free_live live]
      refine ⟨keeps.clean, ?_, ?_⟩
      · rw [textOwner_update]
        exact keeps.exclusive.release owner
      · apply holds_update keeps.holds
        · exact Or.inl (Function.update_self v _ t.vars)
        · intro u other
          exact Function.update_of_ne other _ t.vars
        · intro u other c text owned stored
          have different : c ≠ b := by
            rintro rfl
            exact other (keeps.exclusive.unshared owned owner)
          dsimp only
          rw [Finmap.lookup_erase_ne different]
          exact stored

/-- Every allowed operation succeeds and keeps the invariant. -/
theorem exec_keeps {t : Records Var Block} {life life' : Var → Life} (keeps : Keeps t life)
    {op : RecordOp Var Block} (allowed : Allowed life t.world.blocks.keys op life') :
    ∃ t', exec (LogRecord.encodeState (model Block) t) op =
      .ok (LogRecord.encodeState (model Block) t') ∧ Keeps t' life' := by
  cases allowed with
  | @newText v s b vacant fresh =>
      rw [Finmap.mem_keys] at fresh
      exact ⟨_, exec_newText t v s b, keeps.storeText vacant fresh⟩
  | @newNumber v n vacant =>
      have nothing := textOwner_of_vacant (keeps.holds v) vacant
      exact ⟨_, exec_newNumber t v n, keeps.storeNumber nothing t.world.next fun _ held => held⟩
  | @copyText dst src s b vacant source fresh =>
      rw [Finmap.mem_keys] at fresh
      have holds := keeps.holds src
      rw [source] at holds
      obtain ⟨p, held, stored⟩ := holds
      exact ⟨_, exec_copyText held stored, keeps.storeText vacant fresh⟩
  | @copyNumber dst src n b vacant source =>
      have nothing := textOwner_of_vacant (keeps.holds dst) vacant
      have held := keeps.holds src
      rw [source] at held
      exact ⟨_, exec_copyNumber held, keeps.storeNumber nothing b fun _ held => held⟩
  | @destroy v constructed =>
      have holds := keeps.holds v
      have number : ∀ n, t.vars v = some (numberRecord n) →
          ∃ t', exec (LogRecord.encodeState (model Block) t) (.destroy v) =
            .ok (LogRecord.encodeState (model Block) t') ∧
            Keeps t' (Function.update life v .destroyed) := by
        intro n held
        have nothing : textOwner t v = none := by
          rw [textOwner, held]
          rfl
        exact ⟨_, exec_destroyNumber held,
          keeps.storeNumber nothing t.world.next fun _ again => Or.inr ⟨n, again⟩⟩
      cases lifeOf : life v with
      | absent => exact absurd lifeOf constructed
      | destroyed =>
          rw [lifeOf] at holds
          rcases holds with held | ⟨n, held⟩
          · exact ⟨_, exec_destroyText held, keeps.destroyText held⟩
          · exact number n held
      | alive c =>
          rw [lifeOf] at holds
          cases c with
          | text s =>
              obtain ⟨p, held, _⟩ := holds
              exact ⟨_, exec_destroyText held, keeps.destroyText held⟩
          | number n => exact number n holds

/-! ### Programs -/

theorem keeps_of_reached {s : State Var Block} {life : Var → Life} (reached : Reached s life) :
    ∃ t, s = LogRecord.encodeState (model Block) t ∧ Keeps t life := by
  induction reached with
  | start b =>
      refine ⟨{ vars := fun _ => none, world := { blocks := ∅, next := b, violations := [] } },
        rfl, rfl, ?_, fun v => rfl⟩
      exact .empty fun v => rfl
  | step _ allowed done ih =>
      obtain ⟨t, rfl, keeps⟩ := ih
      obtain ⟨t', executed, kept⟩ := exec_keeps keeps allowed
      exact ⟨t', Except.ok.inj (done.symm.trans executed), kept⟩

/-- In every state of every program nothing was freed twice or read after it was freed, no block has two
    owners, the live blocks are those of the text records that are alive, one each, and every record
    has the text or the number that it was made with; once no record is alive, no block is.  And
    every operation that the client may do next succeeds. -/
theorem records_own_their_strings {s : State Var Block} {life : Var → Life}
    (reached : Reached s life) :
    s.world.violations = [] ∧
    (∀ op life', Allowed life s.world.blocks.keys op life' → ∃ s', exec s op = .ok s') ∧
    ((∀ v, ¬ (life v).isAlive) → s.world.blocks = ∅) ∧
    ∃ t, s = LogRecord.encodeState (model Block) t ∧
      (∀ u v b, textOwner t u = some b → textOwner t v = some b → u = v) ∧
      (∀ b, b ∈ s.world.blocks ↔
        ∃! v, (∃ text, life v = .alive (.text text)) ∧ textOwner t v = some b) ∧
      ∀ v, HoldsLife t v (life v) := by
  obtain ⟨t, rfl, keeps⟩ := keeps_of_reached reached
  have ownerIsAlive : ∀ v b, textOwner t v = some b → ∃ text, life v = .alive (.text text) := by
    intro v b owned
    have holds := keeps.holds v
    cases lifeOf : life v with
    | alive c =>
        cases c with
        | text text => exact ⟨text, rfl⟩
        | number n =>
            rw [lifeOf] at holds
            have held : t.vars v = some (numberRecord n) := holds
            rw [textOwner, held] at owned
            cases owned
    | _ =>
        rw [lifeOf] at holds
        have vacant := textOwner_of_vacant holds (by simp [Life.isAlive])
        rw [vacant] at owned
        cases owned
  refine ⟨keeps.clean, ?_, ?_, t, rfl, ?_, ?_, keeps.holds⟩
  · intro op life' allowed
    obtain ⟨t', executed, _⟩ := exec_keeps keeps allowed
    exact ⟨_, executed⟩
  · intro dead
    apply Finmap.ext_lookup
    intro b
    rw [Finmap.lookup_empty, Finmap.lookup_eq_none]
    intro live
    obtain ⟨v, owned⟩ := (keeps.exclusive.live_iff b).mp live
    obtain ⟨text, alive⟩ := ownerIsAlive v b owned
    apply dead v
    rw [alive]
    trivial
  · intro u v b first second
    exact keeps.exclusive.unshared first second
  · intro b
    constructor
    · intro live
      obtain ⟨v, owned⟩ := (keeps.exclusive.live_iff b).mp live
      refine ⟨v, ⟨ownerIsAlive v b owned, owned⟩, ?_⟩
      rintro u ⟨_, again⟩
      exact keeps.exclusive.unshared again owned
    · rintro ⟨v, ⟨_, owned⟩, _⟩
      exact keeps.exclusive.live owned

def linkDown : CStr where
  bytes := [108, 105, 110, 107, 32, 100, 111, 119, 110]
  noNul := by decide

/-- A text is copied and the original destroyed: one block is left, and it is the one of the copy. -/
theorem linkDown_copied_and_destroyed :
    ∃ (s : State Bool Nat) (t : Records Bool Nat),
      s = LogRecord.encodeState (model Nat) t ∧ s.world.violations = [] ∧
      HoldsLife t true .destroyed ∧ HoldsLife t false (.alive (.text linkDown)) := by
  have made : @Reached Bool Nat _ _ _ _ :=
    .step (.start 0)
      (show Allowed _ _ (.newText true linkDown 0) _ from
        .newText (by simp [Life.isAlive]) (by simp))
      (exec_newText { vars := fun _ => none, world := { blocks := ∅, next := 0, violations := [] } }
        true linkDown 0)
  have copied := Reached.step made
    (show Allowed _ _ (.copy false true 1) _ from
      .copyText (by simp [Life.isAlive]) rfl
        (by rw [Finmap.mem_keys]; simp [SumInstance.encodeState, Finmap.notMem_empty]))
    (exec_copyText rfl (Finmap.lookup_insert _))
  have destroyed := Reached.step copied
    (show Allowed _ _ (.destroy true) _ from .destroy (by simp))
    (exec_destroyText rfl)
  obtain ⟨clean, _, _, t, same, _, _, holds⟩ := records_own_their_strings destroyed
  exact ⟨_, t, same, clean, holds true, holds false⟩

end ResourceDemo

end GenericSumType
