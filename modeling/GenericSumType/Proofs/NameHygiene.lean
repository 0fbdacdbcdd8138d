/-
Module: GenericSumType.Proofs.NameHygiene
Layer: Proofs
Purpose: When the names that the generators paste together are distinct and visible.  A tag is pasted
  behind `NAME_` alone for its enumerator and between affixes for everything else, so a tag that looks like
  an affix around another tag takes a name that is already in use.  Every file-scope name but `NAME` is a
  suffix behind `NAME_`; the families of suffixes are compared in pairs.
Imports: GenericSumType.Proofs.Alignment, Mathlib.Data.List.Nodup
Trusted boundary: human-reviewed statement of which tags keep the names apart
Main exports: TagsApart, HandlersApart, HelperApart, SwitchFn.LabelsVisible, fileScopeNames_eq,
  suffixes_nodup_iff, fileScopeNames_nodup_iff, labelsVisible_iff, name_hygiene_iff
Open obligations: none
-/
import Mathlib.Data.List.Nodup
import GenericSumType.Proofs.Alignment

namespace GenericSumType

/-! ### Which tags keep the names apart -/

/-- No tag is an affix of the file-scope names around another tag. -/
structure TagsApart (tags : List Ident) : Prop where
  /-- `NAME_tag_t` is the type of the enumerators. -/
  tagType : "tag_t" ∉ tags
  ctors : ∀ t ∈ tags, "new_" ++ t ∉ tags
  getters : ∀ t ∈ tags, "get_" ++ t ∉ tags
  constGetters : ∀ t ∈ tags, "get_" ++ t ++ "_const" ∉ tags
  /-- the read-only getter of `t` against the getter of `t_const` -/
  bothGetters : ∀ t ∈ tags, t ++ "_const" ∉ tags

/-- No tag is the affix of the handler parameters in front of another tag. -/
def HandlersApart (affix : Ident) (tags : List Ident) : Prop := ∀ t ∈ tags, affix ++ t ∉ tags

/-- No handler parameter hides an enumerator that a case is labelled with. -/
def SwitchFn.LabelsVisible {B : Type} (f : SwitchFn B) : Prop :=
  ∀ c ∈ f.cases, c.label ∉ f.params.map HandlerParam.name

/-! ### Pasted names -/

section Suffixes

/-- What stands behind `NAME_` in the names at file scope. -/
def fileScopeSuffixes (tags : List Ident) : List Ident :=
  "tag_t" ::
    (tags ++ tags.map ("new_" ++ ·) ++ tags.map ("get_" ++ ·) ++ tags.map ("get_" ++ · ++ "_const"))

theorem paste_ne_self (NAME suffix : Ident) : NAME ++ "_" ++ suffix ≠ NAME := by
  intro same
  have lengths := congrArg String.length same
  have one : "_".length = 1 := rfl
  rw [String.length_append, String.length_append] at lengths
  omega

theorem paste_affix (NAME affix rest : Ident) :
    NAME ++ "_" ++ (affix ++ rest) = NAME ++ ("_" ++ affix) ++ rest := by
  rw [String.append_assoc, ← @String.append_assoc "_" affix rest, ← String.append_assoc]

variable {B : Type}

/-- A family of pasted names, as suffixes of the tags behind `NAME_`. -/
theorem map_names_eq {α : Type} {NAME : Ident} {aspect : Variant B → α} {name : α → Ident}
    {suffix : Ident → Ident} (pasted : ∀ v, name (aspect v) = NAME ++ "_" ++ suffix v.tag)
    (VARIANTS : VariantList B) :
    (VARIANTS.map aspect).map name =
      ((VARIANTS.map Variant.tag).map suffix).map (NAME ++ "_" ++ ·) := by
  rw [List.map_map, List.map_map, List.map_map]
  exact List.map_congr_left fun v _ => pasted v

/-- Apart from `NAME` itself, the names at file scope are suffixes behind `NAME_`. -/
theorem fileScopeNames_eq (NAME : Ident) (VARIANTS : VariantList B) :
    (defineSumType NAME VARIANTS).fileScopeNames =
      NAME :: (fileScopeSuffixes (VARIANTS.map Variant.tag)).map (NAME ++ "_" ++ ·) := by
  have getter (t : Ident) : NAME ++ "_get_" ++ t = NAME ++ "_" ++ ("get_" ++ t) :=
    (paste_affix NAME "get_" t).symm
  have tagType : (defineSumType NAME VARIANTS).tagTypeName = NAME ++ "_" ++ "tag_t" := by
    rw [String.append_assoc]
    rfl
  have enumerators : (defineSumType NAME VARIANTS).enumerators =
      (VARIANTS.map Variant.tag).map (NAME ++ "_" ++ ·) := by
    rw [List.map_map]
    rfl
  have constGetter (t : Ident) :
      NAME ++ "_get_" ++ t ++ "_const" = NAME ++ "_" ++ ("get_" ++ t ++ "_const") := by
    rw [getter, String.append_assoc]
  have ctors := @map_names_eq _ _ NAME (sumCtor NAME ()) Ctor.fnName ("new_" ++ ·)
    (fun v => (paste_affix NAME "new_" v.tag).symm) VARIANTS
  have getters := @map_names_eq _ _ NAME (sumGetter NAME ()) Getter.fnName ("get_" ++ ·)
    (fun v => getter v.tag) VARIANTS
  have constGetters := @map_names_eq _ _ NAME (sumGetterConst NAME ()) Getter.fnName
    ("get_" ++ · ++ "_const") (fun v => constGetter v.tag) VARIANTS
  rw [SumTypeDecl.fileScopeNames, tagType, enumerators, fileScopeSuffixes, List.map_cons,
    List.map_append, List.map_append, List.map_append, ← ctors, ← getters, ← constGetters]
  rfl

variable {tags : List Ident}

/-- Two suffixes with different first characters are different. -/
theorem ne_of_head {s t : Ident} (differ : s.toList.head? ≠ t.toList.head?) : s ≠ t := by
  intro same
  rw [same] at differ
  exact differ rfl

theorem disjoint_map_iff {f : Ident → Ident} : tags.Disjoint (tags.map f) ↔ ∀ t ∈ tags, f t ∉ tags := by
  rw [List.disjoint_right]
  exact List.forall_mem_map

/-- Images under maps that never agree are disjoint. -/
theorem disjoint_maps {f g : Ident → Ident} (apart : ∀ t u, f t ≠ g u) :
    (tags.map f).Disjoint (tags.map g) := by
  intro name first second
  obtain ⟨t, _, rfl⟩ := List.mem_map.mp first
  obtain ⟨u, _, same⟩ := List.mem_map.mp second
  exact apart t u same.symm

theorem new_ne_get (t u : Ident) : "new_" ++ t ≠ "get_" ++ u :=
  ne_of_head (by simp)

theorem new_ne_getConst (t u : Ident) : "new_" ++ t ≠ "get_" ++ u ++ "_const" := by
  rw [String.append_assoc]
  exact new_ne_get t _

/-- The two families of getters meet where a tag is another one with `_const` behind it. -/
theorem disjoint_getters_iff :
    (tags.map ("get_" ++ ·)).Disjoint (tags.map ("get_" ++ · ++ "_const")) ↔
      ∀ t ∈ tags, t ++ "_const" ∉ tags := by
  constructor
  · intro apart t member member'
    have first : "get_" ++ (t ++ "_const") ∈ tags.map ("get_" ++ ·) := List.mem_map_of_mem member'
    rw [← String.append_assoc] at first
    exact apart first (List.mem_map_of_mem (f := ("get_" ++ · ++ "_const")) member)
  · intro apart name first second
    obtain ⟨t, member, rfl⟩ := List.mem_map.mp first
    obtain ⟨u, member', same⟩ := List.mem_map.mp second
    rw [String.append_assoc] at same
    have equal : u ++ "_const" = t := (String.append_right_inj "get_").mp same
    exact apart u member' (equal ▸ member)

/-- A suffix that no tag is mapped to. -/
theorem notMem_map_of_ne {f : Ident → Ident} {suffix : Ident} (apart : ∀ t, f t ≠ suffix) :
    suffix ∉ tags.map f := by
  intro member
  obtain ⟨t, _, same⟩ := List.mem_map.mp member
  exact apart t same

theorem tag_t_notMem_iff :
    "tag_t" ∉ tags ++ tags.map ("new_" ++ ·) ++ tags.map ("get_" ++ ·) ++
        tags.map ("get_" ++ · ++ "_const") ↔
      "tag_t" ∉ tags := by
  have ctor : "tag_t" ∉ tags.map ("new_" ++ ·) := notMem_map_of_ne fun t => ne_of_head (by simp)
  have getter : "tag_t" ∉ tags.map ("get_" ++ ·) := notMem_map_of_ne fun t => ne_of_head (by simp)
  have constGetter : "tag_t" ∉ tags.map ("get_" ++ · ++ "_const") :=
    notMem_map_of_ne fun t => ne_of_head (by simp)
  simp only [List.mem_append, ctor, getter, constGetter, or_false]

/-- The suffixes are distinct exactly when the tags are and no tag is an affix around another. -/
theorem suffixes_nodup_iff : (fileScopeSuffixes tags).Nodup ↔ tags.Nodup ∧ TagsApart tags := by
  have ctors : (tags.map ("new_" ++ ·)).Nodup ↔ tags.Nodup := List.nodup_map_iff (paste_injective "new_")
  have getters : (tags.map ("get_" ++ ·)).Nodup ↔ tags.Nodup :=
    List.nodup_map_iff (paste_injective "get_")
  have constGetters : (tags.map ("get_" ++ · ++ "_const")).Nodup ↔ tags.Nodup :=
    List.nodup_map_iff (paste_suffix_injective "get_" "_const")
  have newGet : (tags.map ("new_" ++ ·)).Disjoint (tags.map ("get_" ++ ·)) := disjoint_maps new_ne_get
  have newGetConst : (tags.map ("new_" ++ ·)).Disjoint (tags.map ("get_" ++ · ++ "_const")) :=
    disjoint_maps new_ne_getConst
  rw [fileScopeSuffixes, List.nodup_cons, tag_t_notMem_iff, List.nodup_append', List.nodup_append',
    List.nodup_append', ctors, getters, constGetters]
  simp only [List.disjoint_append_left, disjoint_map_iff, disjoint_getters_iff, newGet, newGetConst,
    and_true]
  constructor
  · rintro ⟨tagType, ⟨⟨distinct, _, ctor⟩, _, getter⟩, _, constGetter, bothGetters⟩
    exact
      ⟨distinct,
        { tagType := tagType
          ctors := ctor
          getters := getter
          constGetters := constGetter
          bothGetters := bothGetters }⟩
  · rintro ⟨distinct, apart⟩
    exact
      ⟨apart.tagType,
        ⟨⟨distinct, distinct, apart.ctors⟩, distinct, apart.getters⟩, distinct,
        apart.constGetters, apart.bothGetters⟩

end Suffixes

section Names

variable {B : Type} (NAME : Ident) (VARIANTS : VariantList B)

theorem fileScopeNames_nodup_iff :
    (defineSumType NAME VARIANTS).fileScopeNames.Nodup ↔
      (VARIANTS.map Variant.tag).Nodup ∧ TagsApart (VARIANTS.map Variant.tag) := by
  have outside : NAME ∉ (fileScopeSuffixes (VARIANTS.map Variant.tag)).map (NAME ++ "_" ++ ·) := by
    intro member
    obtain ⟨suffix, _, same⟩ := List.mem_map.mp member
    exact paste_ne_self NAME suffix same
  rw [fileScopeNames_eq, List.nodup_cons, List.nodup_map_iff (paste_injective (NAME ++ "_")),
    suffixes_nodup_iff]
  exact and_iff_right outside

/-- A handler parameter hides a label where its affix in front of a tag is a tag. -/
theorem labelsVisible_iff {f : SwitchFn B} {affix text : Ident} {paramOf : Variant B → HandlerParam B}
    {caseOf : Variant B → SwitchCase} (split : text = "_" ++ affix)
    (params : f.params = VARIANTS.map paramOf) (named : ∀ v, (paramOf v).name = NAME ++ text ++ v.tag)
    (cases : f.cases = VARIANTS.map caseOf) (labelled : ∀ v, (caseOf v).label = NAME ++ "_" ++ v.tag) :
    f.LabelsVisible ↔ HandlersApart affix (VARIANTS.map Variant.tag) := by
  have param (v : Variant B) : (paramOf v).name = NAME ++ "_" ++ (affix ++ v.tag) := by
    rw [named, split, paste_affix]
  rw [SwitchFn.LabelsVisible, params, cases]
  constructor
  · intro apart tag member taken
    obtain ⟨v, inside, rfl⟩ := List.mem_map.mp member
    obtain ⟨w, inside', same⟩ := List.mem_map.mp taken
    apply apart (caseOf w) (List.mem_map_of_mem inside')
    rw [labelled, same, ← param]
    exact List.mem_map_of_mem (List.mem_map_of_mem inside)
  · intro apart c first second
    obtain ⟨w, inside', rfl⟩ := List.mem_map.mp first
    obtain ⟨p, second, same⟩ := List.mem_map.mp second
    obtain ⟨v, inside, rfl⟩ := List.mem_map.mp second
    rw [param, labelled] at same
    have equal : affix ++ v.tag = w.tag := paste_injective (NAME ++ "_") same
    apply apart v.tag (List.mem_map_of_mem inside)
    rw [equal]
    exact List.mem_map_of_mem inside'

/-- The file-scope names of a variant list are distinct exactly when its tags are and keep apart, and the
    labels of every generated function are visible exactly when no tag is a handler affix in front of a
    tag. -/
theorem name_hygiene_iff :
    ((defineSumType NAME VARIANTS).fileScopeNames.Nodup ↔
      (VARIANTS.map Variant.tag).Nodup ∧ TagsApart (VARIANTS.map Variant.tag)) ∧
    (∀ MATCH_FN RET_TYPE, (defineSumMatch NAME VARIANTS MATCH_FN RET_TYPE).LabelsVisible ↔
      HandlersApart "on_" (VARIANTS.map Variant.tag)) ∧
    (∀ MATCH_FN RET_TYPE, (defineSumMatchConst NAME VARIANTS MATCH_FN RET_TYPE).LabelsVisible ↔
      HandlersApart "on_" (VARIANTS.map Variant.tag)) ∧
    (∀ DISPATCH_FN void CTX_TYPE,
      (defineSumDispatch NAME VARIANTS DISPATCH_FN void CTX_TYPE).LabelsVisible ↔
        HandlersApart "on_" (VARIANTS.map Variant.tag)) ∧
    (∀ DESTROY_FN void, (defineSumDestroy NAME VARIANTS DESTROY_FN void).LabelsVisible ↔
      HandlersApart "on_" (VARIANTS.map Variant.tag)) ∧
    ∀ COPY_FN, (defineSumCopy NAME VARIANTS COPY_FN).LabelsVisible ↔
      HandlersApart "copy_" (VARIANTS.map Variant.tag) := by
  refine ⟨fileScopeNames_nodup_iff NAME VARIANTS, ?_, ?_, ?_, ?_, ?_⟩
  · intro MATCH_FN RET_TYPE
    exact labelsVisible_iff NAME VARIANTS rfl rfl (fun _ => rfl) rfl fun _ => rfl
  · intro MATCH_FN RET_TYPE
    exact labelsVisible_iff NAME VARIANTS rfl rfl (fun _ => rfl) rfl fun _ => rfl
  · intro DISPATCH_FN void CTX_TYPE
    exact labelsVisible_iff NAME VARIANTS rfl rfl (fun _ => rfl) rfl fun _ => rfl
  · intro DESTROY_FN void
    exact labelsVisible_iff NAME VARIANTS rfl rfl (fun _ => rfl) rfl fun _ => rfl
  · intro COPY_FN
    exact labelsVisible_iff NAME VARIANTS rfl rfl (fun _ => rfl) rfl fun _ => rfl

end Names

section Clashes

/-- A variant list with the given tags and payloads of one type. -/
def taggedList (tags : List Ident) : VariantList Unit :=
  tags.map fun tag => { tag := tag, type := { base := (), tail := [] } }

/-- Two distinct tags whose enumerator and constructor share a name, and two whose handler parameter hides
    an enumerator. -/
theorem affixes_clash :
    ((taggedList ["x", "new_x"]).map Variant.tag).Nodup ∧
      ¬(defineSumType "T" (taggedList ["x", "new_x"])).fileScopeNames.Nodup ∧
      ((taggedList ["x", "on_x"]).map Variant.tag).Nodup ∧
      ¬(defineSumMatch "T" (taggedList ["x", "on_x"]) "T_match" [.name ()]).LabelsVisible := by
  refine ⟨by decide, by decide, by decide, ?_⟩
  rw [SwitchFn.LabelsVisible]
  decide

end Clashes

end GenericSumType
