/-
Module: GenericSumType.Header.Expansion
Layer: Header
Purpose: The X-macro expansions of `generic_sum_type.h` as data.  A variant list is a list of
  `(tag, TYPE)` pairs, `VARIANTS(X, NAME, EXTRA)` maps an aspect over it, and every `DEFINE_SUM_*`
  assembles the declarations and functions that the header generates.  The pieces of one generated
  function (enumerators, parameters, switch cases) come from separate expansions and refer to each
  other by pasted names only; nothing here links them by position.
Imports: GenericSumType.Header.CType
Trusted boundary: human-reviewed transcription of the macros
Main exports: Variant, expand, SumTypeDecl, SwitchFn, defineSumType, defineSumMatch,
  defineSumMatchConst, defineSumDispatch, defineSumDestroy, defineSumCopy, defineSumNewGeneric
Open obligations: none
-/
import GenericSumType.Header.CType

namespace GenericSumType

/-- One entry `X(NAME, EXTRA, tag, TYPE)` of a variant list. -/
structure Variant (B : Type) where
  tag : Ident
  type : TypeName B
deriving DecidableEq, Repr

/-- The type list of a sum type, in the order the user wrote it. -/
abbrev VariantList (B : Type) := List (Variant B)

section Aspects

variable {B E α : Type}

/-- `VARIANTS(X, NAME, EXTRA)`: the aspect `X` applied to every entry, in list order. -/
def expand (X : Ident → E → Variant B → α) (NAME : Ident) (EXTRA : E)
    (VARIANTS : VariantList B) : List α :=
  VARIANTS.map (X NAME EXTRA)

/-- `TYPE member;` inside the union. -/
structure UnionMember (B : Type) where
  name : Ident
  type : TypeName B
deriving Repr

/-- `NAME fnName(TYPE v) { return (NAME){ .tag = tag, .as.member = v }; }` -/
structure Ctor (B : Type) where
  fnName : Ident
  param : TypeName B
  tag : Ident
  member : Ident
deriving Repr

/-- `result fnName([const] NAME *self) { return self->tag == tag ? &self->as.member : NULL; }` -/
structure Getter (B : Type) where
  fnName : Ident
  selfConst : Bool
  result : List (TypeToken B)
  tag : Ident
  member : Ident
deriving Repr

/-- `, result (*name)(args...)`: one handler parameter of a generated function. -/
structure HandlerParam (B : Type) where
  name : Ident
  result : List (TypeToken B)
  args : List (List (TypeToken B))
deriving Repr

/-- What stands behind `case NAME_TAG:`.  Every body calls one handler on `&self->as.member`; they
    differ in what they do with its value and in how they leave the switch. -/
inductive CaseBody where
  /-- `return callee(&self->as.member);` -/
  | returnCall (callee member : Ident)
  /-- `callee(&self->as.member, ctx); break;` -/
  | callBreak (callee member : Ident)
  /-- `callee(&self->as.member); return;` -/
  | callReturn (callee member : Ident)
  /-- `return (NAME){ .tag = tag, .as.target = callee(&self->as.member) };` -/
  | returnSum (tag target callee member : Ident)
deriving DecidableEq, Repr

/-- The handler that a case calls. -/
def CaseBody.callee : CaseBody → Ident
  | returnCall callee _ | callBreak callee _ | callReturn callee _ | returnSum _ _ callee _ => callee

/-- The union member whose address a case takes. -/
def CaseBody.member : CaseBody → Ident
  | returnCall _ member | callBreak _ member | callReturn _ member | returnSum _ _ _ member => member

/-- One case of a generated switch. -/
structure SwitchCase where
  label : Ident
  body : CaseBody
deriving DecidableEq, Repr

/-- The statements of a generated function body.  `switch` stands for
    `switch (self->tag) { cases }`, which has no `default:`. -/
inductive BodyStmt where
  | lock
  | switch
  | unlock
  | unreachable
deriving DecidableEq, Repr

/-- The declared result of a generated function: a spliced text, or `NAME` itself. -/
inductive FnResult (B : Type) where
  | text (type : List (TypeToken B))
  | sum (name : Ident)
deriving Repr

/-- A generated function that dispatches on `self->tag`.  Its first parameter is `self`, a pointer to
    `NAME` or `const NAME`; `ctx` is the text of the second one where there is one. -/
structure SwitchFn (B : Type) where
  fnName : Ident
  result : FnResult B
  selfConst : Bool
  ctx : Option (List (TypeToken B))
  params : List (HandlerParam B)
  cases : List SwitchCase
  body : List BodyStmt
deriving Repr

/-! ### Aspects of `DEFINE_SUM_TYPE` -/

/-- `NAME##_##TAG,` -/
def sumTagEntry (NAME : Ident) (_EXTRA : E) (v : Variant B) : Ident :=
  NAME ++ "_" ++ v.tag

/-- `TYPE TAG;` -/
def sumUnionMember (_NAME : Ident) (_EXTRA : E) (v : Variant B) : UnionMember B :=
  { name := v.tag, type := v.type }

def sumCtor (NAME : Ident) (_EXTRA : E) (v : Variant B) : Ctor B :=
  { fnName := NAME ++ "_new_" ++ v.tag
    param := v.type
    tag := NAME ++ "_" ++ v.tag
    member := v.tag }

def sumGetter (NAME : Ident) (_EXTRA : E) (v : Variant B) : Getter B :=
  { fnName := NAME ++ "_get_" ++ v.tag
    selfConst := false
    result := v.type.text ++ [.star]
    tag := NAME ++ "_" ++ v.tag
    member := v.tag }

/-- The read-only getter spells its result with an east const, `TYPE const *`. -/
def sumGetterConst (NAME : Ident) (_EXTRA : E) (v : Variant B) : Getter B :=
  { fnName := NAME ++ "_get_" ++ v.tag ++ "_const"
    selfConst := true
    result := v.type.text ++ [.const, .star]
    tag := NAME ++ "_" ++ v.tag
    member := v.tag }

/-! ### Aspects of the dispatching functions -/

/-- `, RET_TYPE (*NAME##_on_##TAG)(TYPE *)` -/
def sumMatchParam (NAME : Ident) (RET_TYPE : List (TypeToken B)) (v : Variant B) :
    HandlerParam B :=
  { name := NAME ++ "_on_" ++ v.tag
    result := RET_TYPE
    args := [v.type.text ++ [.star]] }

def sumMatchCase (NAME : Ident) (_RET_TYPE : List (TypeToken B)) (v : Variant B) : SwitchCase :=
  { label := NAME ++ "_" ++ v.tag
    body := .returnCall (NAME ++ "_on_" ++ v.tag) v.tag }

/-- `, RET_TYPE (*NAME##_on_##TAG)(TYPE const *)` -/
def sumMatchConstParam (NAME : Ident) (RET_TYPE : List (TypeToken B)) (v : Variant B) :
    HandlerParam B :=
  { name := NAME ++ "_on_" ++ v.tag
    result := RET_TYPE
    args := [v.type.text ++ [.const, .star]] }

def sumMatchConstCase (NAME : Ident) (_RET_TYPE : List (TypeToken B)) (v : Variant B) :
    SwitchCase :=
  { label := NAME ++ "_" ++ v.tag
    body := .returnCall (NAME ++ "_on_" ++ v.tag) v.tag }

/-- `, void (*NAME##_on_##TAG)(TYPE *, CTX_TYPE *)`.  The text of `void` and of `CTX_TYPE` comes as
    `EXTRA`, since `void` is a type name like any other here. -/
def sumDispatchParam (NAME : Ident) (EXTRA : List (TypeToken B) × List (TypeToken B))
    (v : Variant B) : HandlerParam B :=
  { name := NAME ++ "_on_" ++ v.tag
    result := EXTRA.1
    args := [v.type.text ++ [.star], EXTRA.2 ++ [.star]] }

def sumDispatchCase (NAME : Ident) (_EXTRA : List (TypeToken B) × List (TypeToken B))
    (v : Variant B) : SwitchCase :=
  { label := NAME ++ "_" ++ v.tag
    body := .callBreak (NAME ++ "_on_" ++ v.tag) v.tag }

/-- `, void (*NAME##_on_##TAG)(TYPE *)` -/
def sumDestroyParam (NAME : Ident) (void : List (TypeToken B)) (v : Variant B) : HandlerParam B :=
  { name := NAME ++ "_on_" ++ v.tag
    result := void
    args := [v.type.text ++ [.star]] }

def sumDestroyCase (NAME : Ident) (_void : List (TypeToken B)) (v : Variant B) : SwitchCase :=
  { label := NAME ++ "_" ++ v.tag
    body := .callReturn (NAME ++ "_on_" ++ v.tag) v.tag }

/-- `, TYPE (*NAME##_copy_##TAG)(const TYPE *)`: here the `const` is spelled in front of `TYPE`. -/
def sumCopyParam (NAME : Ident) (_EXTRA : E) (v : Variant B) : HandlerParam B :=
  { name := NAME ++ "_copy_" ++ v.tag
    result := v.type.text
    args := [.const :: (v.type.text ++ [.star])] }

def sumCopyCase (NAME : Ident) (_EXTRA : E) (v : Variant B) : SwitchCase :=
  { label := NAME ++ "_" ++ v.tag
    body := .returnSum (NAME ++ "_" ++ v.tag) v.tag (NAME ++ "_copy_" ++ v.tag) v.tag }

end Aspects

section Generators

variable {B : Type}

/-- Everything `DEFINE_SUM_TYPE` declares at file scope. -/
structure SumTypeDecl (B : Type) where
  name : Ident
  tagTypeName : Ident
  enumerators : List Ident
  members : List (UnionMember B)
  ctors : List (Ctor B)
  getters : List (Getter B)
  constGetters : List (Getter B)
deriving Repr

def defineSumType (NAME : Ident) (VARIANTS : VariantList B) : SumTypeDecl B :=
  { name := NAME
    tagTypeName := NAME ++ "_tag_t"
    enumerators := expand sumTagEntry NAME () VARIANTS
    members := expand sumUnionMember NAME () VARIANTS
    ctors := expand sumCtor NAME () VARIANTS
    getters := expand sumGetter NAME () VARIANTS
    constGetters := expand sumGetterConst NAME () VARIANTS }

/-- The ordinary identifiers that `DEFINE_SUM_TYPE` declares at file scope. -/
def SumTypeDecl.fileScopeNames (decl : SumTypeDecl B) : List Ident :=
  decl.name :: decl.tagTypeName ::
    (decl.enumerators ++ decl.ctors.map Ctor.fnName ++ decl.getters.map Getter.fnName ++
      decl.constGetters.map Getter.fnName)

def defineSumMatch (NAME : Ident) (VARIANTS : VariantList B) (MATCH_FN : Ident)
    (RET_TYPE : List (TypeToken B)) : SwitchFn B :=
  { fnName := MATCH_FN
    result := .text RET_TYPE
    selfConst := false
    ctx := none
    params := expand sumMatchParam NAME RET_TYPE VARIANTS
    cases := expand sumMatchCase NAME RET_TYPE VARIANTS
    body := [.switch, .unreachable] }

def defineSumMatchConst (NAME : Ident) (VARIANTS : VariantList B) (MATCH_FN : Ident)
    (RET_TYPE : List (TypeToken B)) : SwitchFn B :=
  { fnName := MATCH_FN
    result := .text RET_TYPE
    selfConst := true
    ctx := none
    params := expand sumMatchConstParam NAME RET_TYPE VARIANTS
    cases := expand sumMatchConstCase NAME RET_TYPE VARIANTS
    body := [.switch, .unreachable] }

def defineSumDispatch (NAME : Ident) (VARIANTS : VariantList B) (DISPATCH_FN : Ident)
    (void CTX_TYPE : List (TypeToken B)) : SwitchFn B :=
  { fnName := DISPATCH_FN
    result := .text void
    selfConst := false
    ctx := some (CTX_TYPE ++ [.star])
    params := expand sumDispatchParam NAME (void, CTX_TYPE) VARIANTS
    cases := expand sumDispatchCase NAME (void, CTX_TYPE) VARIANTS
    body := [.lock, .switch, .unlock] }

def defineSumDestroy (NAME : Ident) (VARIANTS : VariantList B) (DESTROY_FN : Ident)
    (void : List (TypeToken B)) : SwitchFn B :=
  { fnName := DESTROY_FN
    result := .text void
    selfConst := false
    ctx := none
    params := expand sumDestroyParam NAME void VARIANTS
    cases := expand sumDestroyCase NAME void VARIANTS
    body := [.switch] }

def defineSumCopy (NAME : Ident) (VARIANTS : VariantList B) (COPY_FN : Ident) : SwitchFn B :=
  { fnName := COPY_FN
    result := .sum NAME
    selfConst := true
    ctx := none
    params := expand sumCopyParam NAME () VARIANTS
    cases := expand sumCopyCase NAME () VARIANTS
    body := [.switch, .unreachable] }

/-- `SUM_DEFINE_NOOP_DESTROY(FN_NAME, TYPE)`: `void FN_NAME(TYPE *v) { (void)v; }` -/
structure NoopDestroy (B : Type) where
  fnName : Ident
  param : List (TypeToken B)
deriving Repr

def sumDefineNoopDestroy (FN_NAME : Ident) (TYPE : TypeName B) : NoopDestroy B :=
  { fnName := FN_NAME
    param := TYPE.text ++ [.star] }

/-- `SUM_DEFINE_IDENTITY_COPY(FN_NAME, TYPE)`: `TYPE FN_NAME(const TYPE *v) { return *v; }` -/
structure IdentityCopy (B : Type) where
  fnName : Ident
  result : List (TypeToken B)
  param : List (TypeToken B)
deriving Repr

def sumDefineIdentityCopy (FN_NAME : Ident) (TYPE : TypeName B) : IdentityCopy B :=
  { fnName := FN_NAME
    result := TYPE.text
    param := .const :: (TYPE.text ++ [.star]) }

/-- What `DEFINE_SUM_NEW_GENERIC` generates: a placeholder struct and a function that ignores its
    argument and returns `NAME sum_generic_zeroed_ = { 0 };`. -/
structure NewGeneric where
  placeholder : Ident
  fnName : Ident
deriving DecidableEq, Repr

def defineSumNewGeneric (NAME : Ident) (_VARIANTS : VariantList B) : NewGeneric :=
  { placeholder := NAME ++ "_GenericPlaceholder_"
    fnName := NAME ++ "_new_unreachable_" }

end Generators

end GenericSumType
