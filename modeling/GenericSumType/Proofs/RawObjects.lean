/-
Module: GenericSumType.Proofs.RawObjects
Layer: Proofs
Purpose: What the generated functions do on any object, whatever its tag and its union hold.  An object
  either holds a variant, or its tag is no enumerator, or its tag names a member that the union does not
  hold; there is no fourth case, and each case decides the outcome of all five functions.
Imports: GenericSumType.Proofs.Alignment
Trusted boundary: none
Main exports: SumInstance.IsVariant, SumInstance.OutOfRange, Aligned.callHandler_holds,
  Aligned.callHandler_stale, SumInstance.generated_functions_on_any_object
Open obligations: none
-/
import GenericSumType.Proofs.Alignment

namespace GenericSumType

namespace SumInstance

variable {B : Type} (U : SumInstance B) {M : TypeModel B}

/-- The object is one of variant `i`: so says its tag, and the member stored last is that of the variant
    with a value of its type. -/
structure IsVariant (object : RawSum M) (i : Fin U.size) : Prop where
  tag : object.tag = ((i : Nat) : Int)
  member : object.as.member = (U.variant i).tag
  type : object.as.content.1.unqualified = (U.payloadType M i).unqualified

/-- The tag is no enumerator. -/
def OutOfRange (self : RawSum M) : Prop := ∀ i : Fin U.size, self.tag ≠ ((i : Nat) : Int)

/-- The tag is an enumerator, but the union does not hold its variant. -/
def Stale (self : RawSum M) : Prop := ∃ i : Fin U.size, self.tag = ((i : Nat) : Int) ∧ ¬U.IsVariant self i

theorem holds_or_outOfRange_or_stale (self : RawSum M) :
    (∃ i, U.IsVariant self i) ∨ U.OutOfRange self ∨ U.Stale self := by
  by_cases inRange : ∃ i : Fin U.size, self.tag = ((i : Nat) : Int)
  · obtain ⟨i, tag⟩ := inRange
    by_cases holds : U.IsVariant self i
    · exact .inl ⟨i, holds⟩
    · exact .inr (.inr ⟨i, tag, holds⟩)
  · exact .inr (.inl (not_exists.mp inRange))

/-- The functions that return the value of a handler or of a copy, and have `SUM_UNREACHABLE()` behind
    their switch. -/
def valueFns : List (SwitchFn B) := [U.matchFn, U.matchConstFn, U.copyFn]

def switchFns : List (SwitchFn B) := U.dispatchFn :: U.destroyFn :: U.valueFns

variable [DecidableEq B] {σ : Type} {R : CType B → Type}

/-- A call that ran the handler at position `i`, and no other, on the payload that the object held. -/
def RanOnly (outcome : Except Fault (CallState M σ × Returned R)) (i : Fin U.size) (self : RawSum M) :
    Prop :=
  ∃ done returned, outcome = .ok (done, returned) ∧ done.calls = [((i : Nat), self.as.content)] ∧
    done.self.tag = self.tag

namespace Aligned

variable {U} {f : SwitchFn B} {handlerName : Ident → Ident} {paramOf : Variant B → HandlerParam B}
  {caseBody : Variant B → CaseBody}
  {handlers : ∀ i : Fin U.size, σ → U.Payload M i → σ × U.Payload M i × R (U.payloadType M i)}
  {i : Fin U.size} {s : CallState M σ}

variable (handlers) in
theorem callHandler_holds (aligned : U.Aligned f handlerName paramOf caseBody)
    (holds : U.IsVariant s.self i) :
    ∃ s' r, f.callHandler (U.arguments M handlers) (caseBody (U.variant i)) s = .ok (s', r) ∧
      s'.calls = s.calls ++ [((i : Nat), s.self.as.content)] ∧ s'.self.tag = s.self.tag := by
  have content : s.self.as.readMember (U.variant i).tag = .ok s.self.as.content :=
    if_pos holds.member
  simp only [SwitchFn.callHandler, aligned.argPosition_callee i, U.arguments_getElem handlers i,
    resolve_some, ok_bind, aligned.member, content, Handler.apply, dif_pos holds.type]
  refine ⟨_, _, rfl, rfl, ?_⟩
  split <;> rfl

variable (handlers) in
/-- The case of a tag cannot read the member of another one. -/
theorem callHandler_stale (aligned : U.Aligned f handlerName paramOf caseBody)
    (tag : s.self.tag = ((i : Nat) : Int)) (stale : ¬U.IsVariant s.self i) :
    ∃ e, f.callHandler (U.arguments M handlers) (caseBody (U.variant i)) s = .error e ∧
      (e = .inactiveMember ∨ e = .typeMismatch) := by
  by_cases member : s.self.as.member = (U.variant i).tag
  · have type : ¬s.self.as.content.1.unqualified = (U.payloadType M i).unqualified :=
      fun type => stale { tag := tag, member := member, type := type }
    have content : s.self.as.readMember (U.variant i).tag = .ok s.self.as.content := if_pos member
    simp only [SwitchFn.callHandler, aligned.argPosition_callee i, U.arguments_getElem handlers i,
      resolve_some, ok_bind, aligned.member, content, Handler.apply, dif_neg type]
    exact ⟨_, rfl, .inr rfl⟩
  · have content : s.self.as.readMember (U.variant i).tag = .error .inactiveMember := if_neg member
    simp only [SwitchFn.callHandler, aligned.argPosition_callee i, U.arguments_getElem handlers i,
      resolve_some, ok_bind, aligned.member, content]
    exact ⟨_, rfl, .inl rfl⟩

/-- The switch enters the case of the tag, which runs its handler and then leaves as its body says. -/
theorem runStmts_switch_holds (aligned : U.Aligned f handlerName paramOf caseBody) (hooks : CtxHooks σ)
    (holds : U.IsVariant s.self i) (rest : List BodyStmt)
    (leaves : ∀ callee member, caseBody (U.variant i) = .callBreak callee member →
      ∀ s : CallState M σ, ∃ done returned,
        f.runStmts U.decl hooks (U.arguments M handlers) rest s = .ok (done, returned) ∧
          done.calls = s.calls ∧ done.self = s.self) :
    ∃ done returned,
      f.runStmts U.decl hooks (U.arguments M handlers) (.switch :: rest) s = .ok (done, returned) ∧
        done.calls = s.calls ++ [((i : Nat), s.self.as.content)] ∧ done.self.tag = s.self.tag := by
  have entered := aligned.select_active i
  rw [← holds.tag] at entered
  obtain ⟨s', r, called, calls, tag⟩ := aligned.callHandler_holds handlers holds
  generalize caseBody (U.variant i) = body at entered called leaves
  cases body with
  | returnCall callee member =>
      simp only [SwitchFn.runStmts, entered, called, ok_bind]
      exact ⟨_, _, rfl, calls, tag⟩
  | callReturn callee member =>
      simp only [SwitchFn.runStmts, entered, called, ok_bind]
      exact ⟨_, _, rfl, calls, tag⟩
  | returnSum tagName target callee member =>
      simp only [SwitchFn.runStmts, entered, called, ok_bind]
      exact ⟨_, _, rfl, calls, tag⟩
  | callBreak callee member =>
      simp only [SwitchFn.runStmts, entered, called, ok_bind]
      obtain ⟨done, returned, ran, sameCalls, sameSelf⟩ := leaves callee member rfl s'
      exact ⟨done, returned, ran, sameCalls.trans calls, (congrArg RawSum.tag sameSelf).trans tag⟩

theorem runStmts_switch_stale (aligned : U.Aligned f handlerName paramOf caseBody) (hooks : CtxHooks σ)
    (tag : s.self.tag = ((i : Nat) : Int)) (stale : ¬U.IsVariant s.self i) (rest : List BodyStmt) :
    ∃ e, f.runStmts U.decl hooks (U.arguments M handlers) (.switch :: rest) s = .error e ∧
      (e = .inactiveMember ∨ e = .typeMismatch) := by
  have entered := aligned.select_active i
  rw [← tag] at entered
  obtain ⟨e, called, fault⟩ := aligned.callHandler_stale handlers tag stale
  simp only [SwitchFn.runStmts, entered, called]
  exact ⟨e, rfl, fault⟩

end Aligned

section Objects

variable {U} (hooks : CtxHooks σ)
  (handlers : ∀ i : Fin U.size, σ → U.Payload M i → σ × U.Payload M i × R (U.payloadType M i))
  (w : σ) {self : RawSum M}

theorem run_holds {i : Fin U.size} (holds : U.IsVariant self i) {f : SwitchFn B}
    (generated : f ∈ U.switchFns) :
    U.RanOnly (f.run U.decl hooks (U.arguments M handlers) w self) i self := by
  simp only [switchFns, valueFns, List.mem_cons, List.not_mem_nil, or_false] at generated
  rcases generated with rfl | rfl | rfl | rfl | rfl
  · refine U.aligned_dispatch.runStmts_switch_holds (s := ⟨hooks.lock w, self, []⟩) hooks holds [.unlock] ?_
    intro callee member _ s
    exact ⟨_, _, rfl, rfl, rfl⟩
  · exact U.aligned_destroy.runStmts_switch_holds (s := ⟨w, self, []⟩) hooks holds [] nofun
  · exact U.aligned_match.runStmts_switch_holds (s := ⟨w, self, []⟩) hooks holds [.unreachable] nofun
  · exact U.aligned_matchConst.runStmts_switch_holds (s := ⟨w, self, []⟩) hooks holds [.unreachable] nofun
  · exact U.aligned_copy.runStmts_switch_holds (s := ⟨w, self, []⟩) hooks holds [.unreachable] nofun

theorem run_stale (stale : U.Stale self) {f : SwitchFn B} (generated : f ∈ U.switchFns) :
    ∃ e, f.run U.decl hooks (U.arguments M handlers) w self = .error e ∧
      (e = .inactiveMember ∨ e = .typeMismatch) := by
  obtain ⟨i, tag, stale⟩ := stale
  simp only [switchFns, valueFns, List.mem_cons, List.not_mem_nil, or_false] at generated
  rcases generated with rfl | rfl | rfl | rfl | rfl
  · exact U.aligned_dispatch.runStmts_switch_stale (s := ⟨hooks.lock w, self, []⟩) hooks tag stale [.unlock]
  · exact U.aligned_destroy.runStmts_switch_stale (s := ⟨w, self, []⟩) hooks tag stale []
  · exact U.aligned_match.runStmts_switch_stale (s := ⟨w, self, []⟩) hooks tag stale [.unreachable]
  · exact U.aligned_matchConst.runStmts_switch_stale (s := ⟨w, self, []⟩) hooks tag stale [.unreachable]
  · exact U.aligned_copy.runStmts_switch_stale (s := ⟨w, self, []⟩) hooks tag stale [.unreachable]

theorem run_valueFn_outOfRange (outside : U.OutOfRange self) {f : SwitchFn B} (generated : f ∈ U.valueFns) :
    f.run U.decl hooks (U.arguments M handlers) w self = .error .unreachable := by
  simp only [valueFns, List.mem_cons, List.not_mem_nil, or_false] at generated
  rcases generated with rfl | rfl | rfl
  · exact U.aligned_match.runStmts_switch_invalid (s := ⟨w, self, []⟩) hooks _ outside [.unreachable]
  · exact U.aligned_matchConst.runStmts_switch_invalid (s := ⟨w, self, []⟩) hooks _ outside [.unreachable]
  · exact U.aligned_copy.runStmts_switch_invalid (s := ⟨w, self, []⟩) hooks _ outside [.unreachable]

/-- The hooks are called even when no handler is. -/
theorem run_dispatch_outOfRange (outside : U.OutOfRange self) :
    U.dispatchFn.run U.decl hooks (U.arguments M handlers) w self =
      .ok ({ world := hooks.unlock (hooks.lock w), self := self, calls := [] }, .nothing) :=
  U.aligned_dispatch.runStmts_switch_invalid (s := ⟨hooks.lock w, self, []⟩) hooks _ outside [.unlock]

theorem run_destroy_outOfRange (outside : U.OutOfRange self) :
    U.destroyFn.run U.decl hooks (U.arguments M handlers) w self =
      .ok ({ world := w, self := self, calls := [] }, .nothing) :=
  U.aligned_destroy.runStmts_switch_invalid (s := ⟨w, self, []⟩) hooks _ outside []

omit [DecidableEq B] in
/-- The getters of a variant compare the tag with its position. -/
theorem callGetter_tag (i : Fin U.size) (self : RawSum M) :
    U.decl.callGetter U.decl.getters (U.NAME ++ "_get_" ++ (U.variant i).tag) self =
        .ok (if self.tag = ((i : Nat) : Int) then some (U.variant i).tag else none) ∧
      U.decl.callGetter U.decl.constGetters (U.NAME ++ "_get_" ++ (U.variant i).tag ++ "_const") self =
        .ok (if self.tag = ((i : Nat) : Int) then some (U.variant i).tag else none) := by
  have compared {getters : List (Getter B)} {fnName : Ident} {getter : Getter B}
      (found : KeyedList.entry Getter.fnName getters fnName = some getter)
      (tag : getter.tag = U.NAME ++ "_" ++ (U.variant i).tag) (member : getter.member = (U.variant i).tag) :
      U.decl.callGetter getters fnName self =
        .ok (if self.tag = ((i : Nat) : Int) then some (U.variant i).tag else none) := by
    simp only [SumTypeDecl.callGetter, found, resolve_some, ok_bind, tag, member, U.enumValue_tag i]
  exact ⟨compared (getter_get U.tagsDistinct i) rfl rfl, compared (constGetter_get U.tagsDistinct i) rfl rfl⟩

omit [DecidableEq B] in
theorem callGetter_outOfRange (outside : U.OutOfRange self) (i : Fin U.size) :
    U.decl.callGetter U.decl.getters (U.NAME ++ "_get_" ++ (U.variant i).tag) self = .ok none ∧
      U.decl.callGetter U.decl.constGetters (U.NAME ++ "_get_" ++ (U.variant i).tag ++ "_const") self =
        .ok none := by
  have compared := callGetter_tag i self
  rw [if_neg (outside i)] at compared
  exact compared

/-- An object of any bits: when it holds a variant, every generated function runs exactly the handler of
    that variant on the payload that it holds.  When its tag is no enumerator, the value functions run
    into `SUM_UNREACHABLE()`, a dispatch only calls its hooks, a destroy does nothing and the getters
    return `NULL`.  When its tag names a member that it does not hold, every function reads the wrong
    member. -/
theorem generated_functions_on_any_object (self : RawSum M) :
    ((∃ i, U.IsVariant self i) ∨ U.OutOfRange self ∨ U.Stale self) ∧
      (∀ i, U.IsVariant self i → ∀ f ∈ U.switchFns,
        U.RanOnly (f.run U.decl hooks (U.arguments M handlers) w self) i self) ∧
      (U.OutOfRange self →
        (∀ f ∈ U.valueFns, f.run U.decl hooks (U.arguments M handlers) w self = .error .unreachable) ∧
          U.dispatchFn.run U.decl hooks (U.arguments M handlers) w self =
            .ok ({ world := hooks.unlock (hooks.lock w), self := self, calls := [] }, .nothing) ∧
          U.destroyFn.run U.decl hooks (U.arguments M handlers) w self =
            .ok ({ world := w, self := self, calls := [] }, .nothing) ∧
          ∀ i : Fin U.size,
            U.decl.callGetter U.decl.getters (U.NAME ++ "_get_" ++ (U.variant i).tag) self = .ok none ∧
              U.decl.callGetter U.decl.constGetters
                (U.NAME ++ "_get_" ++ (U.variant i).tag ++ "_const") self = .ok none) ∧
      (U.Stale self → ∀ f ∈ U.switchFns,
        ∃ e, f.run U.decl hooks (U.arguments M handlers) w self = .error e ∧
          (e = .inactiveMember ∨ e = .typeMismatch)) := by
  refine ⟨U.holds_or_outOfRange_or_stale self, ?_, ?_, ?_⟩
  · intro i holds f generated
    exact run_holds hooks handlers w holds generated
  · intro outside
    refine ⟨?_, run_dispatch_outOfRange hooks handlers w outside,
      run_destroy_outOfRange hooks handlers w outside, callGetter_outOfRange outside⟩
    intro f generated
    exact run_valueFn_outOfRange hooks handlers w outside generated
  · intro stale f generated
    exact run_stale hooks handlers w stale generated

end Objects

end SumInstance

end GenericSumType
