/-
Module: GenericSumType.Proofs.Alignment
Layer: Proofs
Purpose: The separate expansions of one variant list line up.  Enumerators, union members, constructors,
  getters, handler parameters and switch cases are tables that refer to each other by pasted names; on a
  list with distinct tags every such reference resolves to the entry at the same position.  From this
  each generated function is computed once on an object that represents position `i`.
Imports: GenericSumType.Spec.Coproduct
Trusted boundary: none
Main exports: enumValue_get, callCtor_get, callGetter_get, callCtor_encode, callGetter_encode, Aligned,
  Aligned.select_active, Aligned.callHandler_encode, run_match, run_matchConst, run_dispatch,
  run_destroy, run_copy
Open obligations: none
-/
import GenericSumType.Spec.Coproduct

namespace GenericSumType

/-- Pasting a tag behind a fixed text is injective. -/
theorem paste_injective (text : Ident) : Function.Injective fun tag : Ident => text ++ tag := by
  intro s t same
  exact (String.append_right_inj text).mp same

/-- Pasting a tag between two fixed texts is injective. -/
theorem paste_suffix_injective (text suffix : Ident) :
    Function.Injective fun tag : Ident => text ++ tag ++ suffix := by
  intro s t same
  exact (String.append_right_inj text).mp ((String.append_left_inj suffix).mp same)

theorem ok_bind {α β : Type} {ε : Type} (a : α) (f : α → Except ε β) :
    (Except.ok a >>= f) = f a := rfl

section Tables

variable {B : Type} {NAME : Ident} {VARIANTS : VariantList B}
variable (distinct : (VARIANTS.map Variant.tag).Nodup)

include distinct

theorem tag_nodup_map {f : Ident → Ident} (injective : Function.Injective f) :
    (VARIANTS.map fun v => f v.tag).Nodup :=
  KeyedList.nodup_map_of_injective injective distinct

/-- The enumerator of the `i`-th tag has value `i`. -/
theorem enumValue_get (i : Fin VARIANTS.length) :
    (defineSumType NAME VARIANTS).enumValue (NAME ++ "_" ++ (VARIANTS.get i).tag) =
      some ((i : Nat) : Int) := by
  have found : KeyedList.position id (defineSumType NAME VARIANTS).enumerators
      (NAME ++ "_" ++ (VARIANTS.get i).tag) = some (i : Nat) :=
    @KeyedList.position_map_getElem _ _ _ _ id (sumTagEntry NAME ()) VARIANTS
      (tag_nodup_map distinct (paste_injective (NAME ++ "_"))) i i.isLt
  rw [SumTypeDecl.enumValue, found]
  rfl

/-- The union member of the `i`-th tag has the `i`-th payload type. -/
theorem memberType_get (typedefs : B → CType B) (i : Fin VARIANTS.length) :
    (defineSumType NAME VARIANTS).memberType typedefs (VARIANTS.get i).tag =
      some ((VARIANTS.get i).type.denoted typedefs) := by
  have found : KeyedList.entry UnionMember.name (defineSumType NAME VARIANTS).members
      (VARIANTS.get i).tag = some (sumUnionMember NAME () (VARIANTS.get i)) :=
    @KeyedList.entry_map_getElem _ _ _ _ UnionMember.name (sumUnionMember NAME ()) VARIANTS
      distinct i i.isLt
  rw [SumTypeDecl.memberType, found]
  rfl

theorem ctor_get (i : Fin VARIANTS.length) :
    KeyedList.entry Ctor.fnName (defineSumType NAME VARIANTS).ctors
      (NAME ++ "_new_" ++ (VARIANTS.get i).tag) = some (sumCtor NAME () (VARIANTS.get i)) :=
  @KeyedList.entry_map_getElem _ _ _ _ Ctor.fnName (sumCtor NAME ()) VARIANTS
    (tag_nodup_map distinct (paste_injective (NAME ++ "_new_"))) i i.isLt

theorem getter_get (i : Fin VARIANTS.length) :
    KeyedList.entry Getter.fnName (defineSumType NAME VARIANTS).getters
      (NAME ++ "_get_" ++ (VARIANTS.get i).tag) = some (sumGetter NAME () (VARIANTS.get i)) :=
  @KeyedList.entry_map_getElem _ _ _ _ Getter.fnName (sumGetter NAME ()) VARIANTS
    (tag_nodup_map distinct (paste_injective (NAME ++ "_get_"))) i i.isLt

theorem constGetter_get (i : Fin VARIANTS.length) :
    KeyedList.entry Getter.fnName (defineSumType NAME VARIANTS).constGetters
      (NAME ++ "_get_" ++ (VARIANTS.get i).tag ++ "_const") =
        some (sumGetterConst NAME () (VARIANTS.get i)) :=
  @KeyedList.entry_map_getElem _ _ _ _ Getter.fnName (sumGetterConst NAME ()) VARIANTS
    (tag_nodup_map distinct (paste_suffix_injective (NAME ++ "_get_") "_const")) i i.isLt

section Calls

variable {M : TypeModel B}

/-- A payload may be stored in the member of its type. -/
theorem writeMember_get [DecidableEq B] {i : Fin VARIANTS.length} {x : M.AnyPayload}
    (same : (M.payloadType (VARIANTS.get i)).unqualified = x.1.unqualified) :
    (defineSumType NAME VARIANTS).writeMember (VARIANTS.get i).tag x =
      .ok { member := (VARIANTS.get i).tag, content := x } := by
  simp only [SumTypeDecl.writeMember, memberType_get distinct, resolve_some, ok_bind]
  exact if_pos same

/-- `NAME_new_<tag i>(x)` -/
theorem callCtor_get [DecidableEq B] {i : Fin VARIANTS.length} {x : M.AnyPayload}
    (same : (M.payloadType (VARIANTS.get i)).unqualified = x.1.unqualified) :
    (defineSumType NAME VARIANTS).callCtor (NAME ++ "_new_" ++ (VARIANTS.get i).tag) x =
      .ok
        { tag := (i : Nat)
          as :=
            { member := (VARIANTS.get i).tag
              content := x } } := by
  have tagValue : (defineSumType NAME VARIANTS).enumValue (sumCtor NAME () (VARIANTS.get i)).tag =
      some ((i : Nat) : Int) := enumValue_get distinct i
  have stored : (defineSumType NAME VARIANTS).writeMember (sumCtor NAME () (VARIANTS.get i)).member
      x = .ok { member := (VARIANTS.get i).tag, content := x } := writeMember_get distinct same
  simp only [SumTypeDecl.callCtor, ctor_get distinct, tagValue, stored, resolve_some, ok_bind]

/-- A getter for position `j` points to its member exactly when `j` is active.  Both families of getters
    differ from this only in their names. -/
theorem callGetter_of_entry {getters : List (Getter B)} {fnName : Ident} {getter : Getter B}
    (found : KeyedList.entry Getter.fnName getters fnName = some getter) {i j : Fin VARIANTS.length}
    (tag : getter.tag = NAME ++ "_" ++ (VARIANTS.get j).tag)
    (member : getter.member = (VARIANTS.get j).tag) {r : RawSum M} (active : r.tag = ((i : Nat) : Int)) :
    (defineSumType NAME VARIANTS).callGetter getters fnName r =
      .ok (if i = j then some (VARIANTS.get j).tag else none) := by
  have sameTag : r.tag = ((j : Nat) : Int) ↔ i = j := by
    rw [active, Int.ofNat_inj, Fin.ext_iff]
  simp only [SumTypeDecl.callGetter, found, resolve_some, ok_bind, tag, member,
    enumValue_get distinct j, sameTag]

theorem callGetter_get {i : Fin VARIANTS.length} {r : RawSum M} (active : r.tag = ((i : Nat) : Int))
    (j : Fin VARIANTS.length) :
    (defineSumType NAME VARIANTS).callGetter (defineSumType NAME VARIANTS).getters
        (NAME ++ "_get_" ++ (VARIANTS.get j).tag) r =
      .ok (if i = j then some (VARIANTS.get j).tag else none) :=
  callGetter_of_entry distinct (getter_get distinct j) rfl rfl active

theorem callGetterConst_get {i : Fin VARIANTS.length} {r : RawSum M}
    (active : r.tag = ((i : Nat) : Int)) (j : Fin VARIANTS.length) :
    (defineSumType NAME VARIANTS).callGetter (defineSumType NAME VARIANTS).constGetters
        (NAME ++ "_get_" ++ (VARIANTS.get j).tag ++ "_const") r =
      .ok (if i = j then some (VARIANTS.get j).tag else none) :=
  callGetter_of_entry distinct (constGetter_get distinct j) rfl rfl active

end Calls

end Tables

namespace SumInstance

variable {B : Type} (U : SumInstance B)

theorem enumValue_tag (i : Fin U.size) :
    U.decl.enumValue (U.NAME ++ "_" ++ (U.variant i).tag) = some ((i : Nat) : Int) :=
  enumValue_get U.tagsDistinct i

theorem memberType_tag (typedefs : B → CType B) (i : Fin U.size) :
    U.decl.memberType typedefs (U.variant i).tag = some ((U.variant i).type.denoted typedefs) :=
  memberType_get U.tagsDistinct typedefs i

section Members

variable (M : TypeModel B)

theorem writeMember_tag [DecidableEq B] (i : Fin U.size) (x : U.Payload M i) :
    U.decl.writeMember (U.variant i).tag ⟨U.payloadType M i, x⟩ =
      .ok (U.encode M ⟨i, x⟩).as :=
  @writeMember_get _ U.NAME _ U.tagsDistinct _ _ i _ rfl

theorem readMember_encode (c : Coproduct (U.Payload M)) :
    (U.encode M c).as.readMember (U.variant c.1).tag = .ok ⟨U.payloadType M c.1, c.2⟩ := by
  simp [RawUnion.readMember, encode]

/-- `NAME_new_<tag i>(x)` represents injection at `i`. -/
theorem callCtor_encode [DecidableEq B] (i : Fin U.size) (x : U.Payload M i) :
    U.decl.callCtor (U.NAME ++ "_new_" ++ (U.variant i).tag) ⟨U.payloadType M i, x⟩ =
      .ok (U.encode M ⟨i, x⟩) :=
  @callCtor_get _ _ _ U.tagsDistinct _ _ i _ rfl

/-- A getter for position `i` points to its member exactly when `i` is active. -/
theorem callGetter_encode (i : Fin U.size) (c : Coproduct (U.Payload M)) :
    U.decl.callGetter U.decl.getters (U.NAME ++ "_get_" ++ (U.variant i).tag) (U.encode M c) =
      .ok (if c.1 = i then some (U.variant i).tag else none) :=
  callGetter_get U.tagsDistinct rfl i

theorem callGetterConst_encode (i : Fin U.size) (c : Coproduct (U.Payload M)) :
    U.decl.callGetter U.decl.constGetters (U.NAME ++ "_get_" ++ (U.variant i).tag ++ "_const")
      (U.encode M c) = .ok (if c.1 = i then some (U.variant i).tag else none) :=
  callGetterConst_get U.tagsDistinct rfl i

/-- `{ 0 }` represents the zero payload of the first variant. -/
theorem zeroInit_encode : U.newGeneric.call U.decl M = .ok (U.encode M (U.zeroValue M)) := by
  have head : U.decl.members.head? =
      some (sumUnionMember U.NAME () (U.variant U.first)) := by
    simp only [decl, defineSumType, expand, List.head?_map]
    rw [List.head?_eq_getElem?, List.getElem?_eq_getElem (List.length_pos_iff.mpr U.nonempty)]
    rfl
  simp only [NewGeneric.call, SumTypeDecl.zeroInit, head, resolve_some, ok_bind]
  rfl

end Members

/-- A generated function whose parameters and cases are the expansions of `paramOf` and `caseBody`
    over the variant list, where the parameter of a tag is named by `handlerName`. -/
structure Aligned (f : SwitchFn B) (handlerName : Ident → Ident) (paramOf : Variant B → HandlerParam B)
    (caseBody : Variant B → CaseBody) : Prop where
  params : f.params = U.VARIANTS.map paramOf
  paramName : ∀ v, (paramOf v).name = handlerName v.tag
  cases : f.cases = U.VARIANTS.map fun v =>
    { label := U.NAME ++ "_" ++ v.tag, body := caseBody v }
  callee : ∀ v, (caseBody v).callee = handlerName v.tag
  member : ∀ v, (caseBody v).member = v.tag
  injective : Function.Injective handlerName
  visible : ∀ v ∈ U.VARIANTS, ∀ w ∈ U.VARIANTS, handlerName v.tag ≠ U.NAME ++ "_" ++ w.tag

theorem aligned_match : U.Aligned U.matchFn (fun tag => U.NAME ++ "_on_" ++ tag)
    (sumMatchParam U.NAME U.RET_TYPE)
    (fun v => .returnCall (U.NAME ++ "_on_" ++ v.tag) v.tag) where
  params := rfl
  paramName _ := rfl
  cases := rfl
  callee _ := rfl
  member _ := rfl
  injective := paste_injective _
  visible := U.onParamsVisible

theorem aligned_matchConst : U.Aligned U.matchConstFn (fun tag => U.NAME ++ "_on_" ++ tag)
    (sumMatchConstParam U.NAME U.RET_TYPE)
    (fun v => .returnCall (U.NAME ++ "_on_" ++ v.tag) v.tag) where
  params := rfl
  paramName _ := rfl
  cases := rfl
  callee _ := rfl
  member _ := rfl
  injective := paste_injective _
  visible := U.onParamsVisible

theorem aligned_dispatch : U.Aligned U.dispatchFn (fun tag => U.NAME ++ "_on_" ++ tag)
    (sumDispatchParam U.NAME (U.VOID, U.CTX_TYPE))
    (fun v => .callBreak (U.NAME ++ "_on_" ++ v.tag) v.tag) where
  params := rfl
  paramName _ := rfl
  cases := rfl
  callee _ := rfl
  member _ := rfl
  injective := paste_injective _
  visible := U.onParamsVisible

theorem aligned_destroy : U.Aligned U.destroyFn (fun tag => U.NAME ++ "_on_" ++ tag)
    (sumDestroyParam U.NAME U.VOID)
    (fun v => .callReturn (U.NAME ++ "_on_" ++ v.tag) v.tag) where
  params := rfl
  paramName _ := rfl
  cases := rfl
  callee _ := rfl
  member _ := rfl
  injective := paste_injective _
  visible := U.onParamsVisible

theorem aligned_copy : U.Aligned U.copyFn (fun tag => U.NAME ++ "_copy_" ++ tag)
    (sumCopyParam U.NAME ())
    (fun v => .returnSum (U.NAME ++ "_" ++ v.tag) v.tag (U.NAME ++ "_copy_" ++ v.tag) v.tag) where
  params := rfl
  paramName _ := rfl
  cases := rfl
  callee _ := rfl
  member _ := rfl
  injective := paste_injective _
  visible := U.copyParamsVisible

namespace Aligned

variable {U} {f : SwitchFn B} {handlerName : Ident → Ident} {paramOf : Variant B → HandlerParam B}
variable {caseBody : Variant B → CaseBody}

theorem paramNames (aligned : U.Aligned f handlerName paramOf caseBody) :
    f.params.map HandlerParam.name = U.VARIANTS.map fun v => handlerName v.tag := by
  rw [aligned.params, List.map_map]
  exact List.map_congr_left fun v _ => aligned.paramName v

/-- The parameter that the case of position `i` calls is the one expanded from variant `i`. -/
theorem paramEntry_callee (aligned : U.Aligned f handlerName paramOf caseBody) (i : Fin U.size) :
    KeyedList.entry HandlerParam.name f.params (caseBody (U.variant i)).callee =
      some (paramOf (U.variant i)) := by
  have distinct : (U.VARIANTS.map fun v => (paramOf v).name).Nodup := by
    simpa only [aligned.paramName] using tag_nodup_map U.tagsDistinct aligned.injective
  rw [aligned.callee, aligned.params, ← aligned.paramName]
  exact KeyedList.entry_map_getElem distinct i.isLt

/-- Case labels are not hidden by parameters, so they have the values of their enumerators. -/
theorem labelValue_tag (aligned : U.Aligned f handlerName paramOf caseBody) (i : Fin U.size) :
    f.labelValue U.decl (U.NAME ++ "_" ++ (U.variant i).tag) = some ((i : Nat) : Int) := by
  have seen : U.NAME ++ "_" ++ (U.variant i).tag ∉ f.params.map HandlerParam.name := by
    rw [aligned.paramNames]
    intro hidden
    rcases List.mem_map.mp hidden with ⟨v, member, same⟩
    exact aligned.visible v member (U.variant i) (List.get_mem _ _) same
  simp only [SwitchFn.labelValue, seen, if_false]
  exact U.enumValue_tag i

/-- The switch enters the case of position `i` on tag `i`. -/
theorem select_active (aligned : U.Aligned f handlerName paramOf caseBody) (i : Fin U.size) :
    f.select U.decl ((i : Nat) : Int) =
      some { label := U.NAME ++ "_" ++ (U.variant i).tag, body := caseBody (U.variant i) } := by
  rw [SwitchFn.select, List.find?_eq_some_iff_getElem]
  refine ⟨by simp [aligned.labelValue_tag i], i, ?_, ?_, ?_⟩
  · rw [aligned.cases, List.length_map]
    exact i.isLt
  · simp only [aligned.cases, List.getElem_map]
    rfl
  · intro j before
    have bound : j < U.size := Nat.lt_trans before i.isLt
    have label : f.labelValue U.decl (U.NAME ++ "_" ++ U.VARIANTS[j].tag) = some (j : Int) :=
      aligned.labelValue_tag ⟨j, bound⟩
    have different : (j : Int) ≠ ((i : Nat) : Int) := by omega
    simpa [aligned.cases, label] using different

/-- A tag that is no position enters no case. -/
theorem select_invalid (aligned : U.Aligned f handlerName paramOf caseBody) {tag : Int}
    (invalid : ∀ i : Fin U.size, tag ≠ ((i : Nat) : Int)) : f.select U.decl tag = none := by
  rw [SwitchFn.select, List.find?_eq_none]
  intro c member
  rw [aligned.cases] at member
  rcases List.mem_map.mp member with ⟨v, inside, rfl⟩
  obtain ⟨i, rfl⟩ := List.get_of_mem inside
  have label : f.labelValue U.decl (U.NAME ++ "_" ++ (U.VARIANTS.get i).tag) =
      some ((i : Nat) : Int) := aligned.labelValue_tag i
  simp only [label, Option.some.injEq, decide_eq_true_eq]
  exact (invalid i).symm

/-- The parameter that the case of position `i` calls is bound to argument `i`. -/
theorem argPosition_callee (aligned : U.Aligned f handlerName paramOf caseBody) (i : Fin U.size) :
    f.argPosition (caseBody (U.variant i)).callee = some (i : Nat) := by
  have distinct : (U.VARIANTS.map fun v => (paramOf v).name).Nodup := by
    simpa only [aligned.paramName] using tag_nodup_map U.tagsDistinct aligned.injective
  rw [SwitchFn.argPosition, aligned.callee, aligned.params, ← aligned.paramName]
  exact KeyedList.position_map_getElem distinct i.isLt

section Run

variable [DecidableEq B] {M : TypeModel B} {σ : Type} {R : CType B → Type}

/-- The state after the handler `h` ran on the payload of the active variant `i`. -/
def afterHandler (f : SwitchFn B) (h : Handler M σ R) (i : Fin U.size) (x : U.Payload M i)
    (same : (U.payloadType M i).unqualified = h.type.unqualified) (s : CallState M σ) :
    CallState M σ :=
  { world := (h.run s.world (cast (congrArg M.Val same) x)).1
    self :=
      if f.selfConst then s.self
      else
        { s.self with
          as :=
            { member := (U.variant i).tag
              content := ⟨h.type, (h.run s.world (cast (congrArg M.Val same) x)).2.1⟩ } }
    calls := s.calls ++ [((i : Nat), ⟨U.payloadType M i, x⟩)] }

/-- On an object that represents position `i`, the case of position `i` calls argument `i` on the
    current payload, as long as that argument takes payloads of this type. -/
theorem callHandler_encode (aligned : U.Aligned f handlerName paramOf caseBody) {args : List (Handler M σ R)}
    {h : Handler M σ R} {i : Fin U.size} (passed : args[(i : Nat)]? = some h)
    (same : (U.payloadType M i).unqualified = h.type.unqualified) (x : U.Payload M i)
    {s : CallState M σ} (self : s.self = U.encode M ⟨i, x⟩) :
    f.callHandler args (caseBody (U.variant i)) s =
      .ok (afterHandler f h i x same s,
        ⟨h.type, (h.run s.world (cast (congrArg M.Val same) x)).2.2⟩) := by
  have position := aligned.argPosition_callee i
  have content : s.self.as.readMember (U.variant i).tag = .ok ⟨U.payloadType M i, x⟩ := by
    rw [self]
    exact U.readMember_encode M ⟨i, x⟩
  have applied : h.apply s.world (⟨U.payloadType M i, x⟩ : M.AnyPayload) =
      .ok ((h.run s.world (cast (congrArg M.Val same) x)).1,
        ⟨h.type, (h.run s.world (cast (congrArg M.Val same) x)).2.1⟩,
        ⟨h.type, (h.run s.world (cast (congrArg M.Val same) x)).2.2⟩) := by
    simp only [Handler.apply, same, dif_pos]
  simp only [SwitchFn.callHandler, position, passed, resolve_some, ok_bind, aligned.member,
    content, applied]
  rfl

/-- The switch on an object that represents position `i`, followed by what the case body does. -/
theorem runStmts_switch (aligned : U.Aligned f handlerName paramOf caseBody) (hooks : CtxHooks σ)
    {args : List (Handler M σ R)} {h : Handler M σ R} {i : Fin U.size}
    (passed : args[(i : Nat)]? = some h)
    (same : (U.payloadType M i).unqualified = h.type.unqualified) (x : U.Payload M i)
    {s : CallState M σ} (self : s.self = U.encode M ⟨i, x⟩) (rest : List BodyStmt) :
    f.runStmts U.decl hooks args (.switch :: rest) s =
      match caseBody (U.variant i) with
      | .returnCall _ _ =>
          .ok (afterHandler f h i x same s,
            .value h.type (h.run s.world (cast (congrArg M.Val same) x)).2.2)
      | .callReturn _ _ => .ok (afterHandler f h i x same s, .nothing)
      | .returnSum tag target _ _ =>
          .ok (afterHandler f h i x same s,
            .sum tag target h.type (h.run s.world (cast (congrArg M.Val same) x)).2.2)
      | .callBreak _ _ => f.runStmts U.decl hooks args rest (afterHandler f h i x same s) := by
  have entered : f.select U.decl s.self.tag =
      some { label := U.NAME ++ "_" ++ (U.variant i).tag, body := caseBody (U.variant i) } := by
    rw [self]
    exact aligned.select_active i
  have called := aligned.callHandler_encode passed same x self
  generalize caseBody (U.variant i) = body at entered called ⊢
  cases body <;> simp only [SwitchFn.runStmts, entered, called, ok_bind]

/-- On a tag that is no position the switch does nothing. -/
theorem runStmts_switch_invalid (aligned : U.Aligned f handlerName paramOf caseBody) (hooks : CtxHooks σ)
    (args : List (Handler M σ R)) {s : CallState M σ}
    (invalid : ∀ i : Fin U.size, s.self.tag ≠ ((i : Nat) : Int)) (rest : List BodyStmt) :
    f.runStmts U.decl hooks args (.switch :: rest) s =
      f.runStmts U.decl hooks args rest s := by
  simp only [SwitchFn.runStmts, aligned.select_invalid invalid]

end Run

end Aligned

section Run

variable {M : TypeModel B} {σ : Type} {R : CType B → Type}

theorem arguments_getElem
    (handlers : ∀ i : Fin U.size, σ → U.Payload M i → σ × U.Payload M i × R (U.payloadType M i))
    (i : Fin U.size) :
    (U.arguments M handlers)[(i : Nat)]? =
      some { type := U.payloadType M i, run := handlers i } := by
  rw [SumInstance.arguments, List.getElem?_ofFn]
  simp

variable [DecidableEq B] (hooks : CtxHooks σ)
  (handlers : ∀ i : Fin U.size, σ → U.Payload M i → σ × U.Payload M i × R (U.payloadType M i))
  (w : σ) (c : Coproduct (U.Payload M))

/-- `DEFINE_SUM_MATCH`: the handler of the active variant runs in place and its value is returned. -/
theorem run_match :
    U.matchFn.run U.decl hooks (U.arguments M handlers) w (U.encode M c) =
      .ok
        ({ world := (handlers c.1 w c.2).1
           self := U.encode M ⟨c.1, (handlers c.1 w c.2).2.1⟩
           calls := [((c.1 : Nat), ⟨U.payloadType M c.1, c.2⟩)] },
          .value (U.payloadType M c.1) (handlers c.1 w c.2).2.2) :=
  U.aligned_match.runStmts_switch hooks (U.arguments_getElem handlers c.1) rfl c.2 rfl
    [.unreachable]

/-- `DEFINE_SUM_MATCH_CONST`: as `MATCH`, but `*self` keeps its payload. -/
theorem run_matchConst :
    U.matchConstFn.run U.decl hooks (U.arguments M handlers) w (U.encode M c) =
      .ok
        ({ world := (handlers c.1 w c.2).1
           self := U.encode M c
           calls := [((c.1 : Nat), ⟨U.payloadType M c.1, c.2⟩)] },
          .value (U.payloadType M c.1) (handlers c.1 w c.2).2.2) :=
  U.aligned_matchConst.runStmts_switch hooks (U.arguments_getElem handlers c.1) rfl c.2 rfl
    [.unreachable]

/-- `DEFINE_SUM_DISPATCH`: the handler runs between the two hooks. -/
theorem run_dispatch :
    U.dispatchFn.run U.decl hooks (U.arguments M handlers) w (U.encode M c) =
      .ok
        ({ world := hooks.unlock (handlers c.1 (hooks.lock w) c.2).1
           self := U.encode M ⟨c.1, (handlers c.1 (hooks.lock w) c.2).2.1⟩
           calls := [((c.1 : Nat), ⟨U.payloadType M c.1, c.2⟩)] }, .nothing) :=
  U.aligned_dispatch.runStmts_switch hooks (U.arguments_getElem handlers c.1) rfl c.2 rfl
    [.unlock]

/-- `DEFINE_SUM_DESTROY` -/
theorem run_destroy :
    U.destroyFn.run U.decl hooks (U.arguments M handlers) w (U.encode M c) =
      .ok
        ({ world := (handlers c.1 w c.2).1
           self := U.encode M ⟨c.1, (handlers c.1 w c.2).2.1⟩
           calls := [((c.1 : Nat), ⟨U.payloadType M c.1, c.2⟩)] }, .nothing) :=
  U.aligned_destroy.runStmts_switch hooks (U.arguments_getElem handlers c.1) rfl c.2 rfl []

/-- `DEFINE_SUM_COPY`: the returned literal names the tag and the member of the active variant. -/
theorem run_copy :
    U.copyFn.run U.decl hooks (U.arguments M handlers) w (U.encode M c) =
      .ok
        ({ world := (handlers c.1 w c.2).1
           self := U.encode M c
           calls := [((c.1 : Nat), ⟨U.payloadType M c.1, c.2⟩)] },
          .sum (U.NAME ++ "_" ++ (U.variant c.1).tag) (U.variant c.1).tag (U.payloadType M c.1)
            (handlers c.1 w c.2).2.2) :=
  U.aligned_copy.runStmts_switch hooks (U.arguments_getElem handlers c.1) rfl c.2 rfl
    [.unreachable]

end Run

/-- The copy that the returned literal denotes represents the copied payload at the same position. -/
theorem toSum_encode [DecidableEq B] {M : TypeModel B} (i : Fin U.size) (y : U.Payload M i) :
    Returned.toSum U.decl (M := M)
        (.sum (U.NAME ++ "_" ++ (U.variant i).tag) (U.variant i).tag (U.payloadType M i) y) =
      .ok (U.encode M ⟨i, y⟩) := by
  simp only [Returned.toSum, U.enumValue_tag i, U.writeMember_tag M i y, resolve_some, ok_bind]
  rfl

end SumInstance

end GenericSumType
