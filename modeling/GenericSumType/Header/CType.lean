/-
Module: GenericSumType.Header.CType
Layer: Header
Purpose: The fragment of C types that a payload `TYPE` of a variant list may have, and the reading of
  the spliced type texts of `generic_sum_type.h` (`TYPE *`, `TYPE const *`, `const TYPE *`) by C's
  declarator rules.  A `TYPE` is spelled as a type name followed by `*` and `const` tokens
  (`design_spec.md` 4.5); the type names themselves are opaque, and `typedefs` says what they denote.
Imports: none (Mathlib-free)
Trusted boundary: human-reviewed reading of C11 6.7.3 and 6.7.6.1
Main exports: CType, TypeToken, TypeName, denote, TypeName.denoted, TypeName.westConst
Open obligations: none
-/

namespace GenericSumType

/-- Identifiers as the preprocessor sees them. -/
abbrev Ident := String

/-- A C object type over the type names `B`: a named type or a pointer, each with its own `const`. -/
inductive CType (B : Type) where
  | named (base : B) (isConst : Bool)
  | pointer (pointee : CType B) (isConst : Bool)
deriving DecidableEq, Repr

namespace CType

variable {B : Type}

/-- The top-level `const` qualifier. -/
def isConst : CType B → Bool
  | named _ c => c
  | pointer _ c => c

/-- Qualify a type at its top level.  Repeating the qualifier changes nothing (C11 6.7.3p5). -/
def addConst : CType B → CType B
  | named b _ => named b true
  | pointer T _ => pointer T true

/-- The type of the value of an lvalue: qualifiers at the top level are dropped (C11 6.3.2.1p2). -/
def unqualified : CType B → CType B
  | named b _ => named b false
  | pointer T _ => pointer T false

@[simp] theorem addConst_addConst (T : CType B) : T.addConst.addConst = T.addConst := by
  cases T <;> rfl

@[simp] theorem unqualified_addConst (T : CType B) : T.addConst.unqualified = T.unqualified := by
  cases T <;> rfl

@[simp] theorem isConst_addConst (T : CType B) : T.addConst.isConst = true := by
  cases T <;> rfl

@[simp] theorem unqualified_pointer (T : CType B) (c : Bool) :
    (pointer T c).unqualified = pointer T false := rfl

@[simp] theorem unqualified_unqualified (T : CType B) : T.unqualified.unqualified = T.unqualified := by
  cases T <;> rfl

@[simp] theorem isConst_unqualified (T : CType B) : T.unqualified.isConst = false := by
  cases T <;> rfl

/-- Qualifying a type that is already `const` changes nothing, and only then. -/
theorem addConst_eq_self_iff (T : CType B) : T.addConst = T ↔ T.isConst = true := by
  cases T with
  | named b c => cases c <;> simp [addConst, isConst]
  | pointer T c => cases c <;> simp [addConst, isConst]

end CType

/-- The tokens that may follow the type name in the spelling of a `TYPE`. -/
inductive DeclToken where
  | const
  | star
deriving DecidableEq, Repr

/-- The tokens of a spliced type text. -/
inductive TypeToken (B : Type) where
  | name (base : B)
  | decl (token : DeclToken)
deriving DecidableEq, Repr

/-- `const` in a type text. -/
abbrev TypeToken.const {B : Type} : TypeToken B := .decl .const

/-- `*` in a type text. -/
abbrev TypeToken.star {B : Type} : TypeToken B := .decl .star

section Denotation

variable {B : Type} (typedefs : B → CType B)

/-- One token after the type name: `const` qualifies what has been read so far, `*` points to it. -/
def CType.extend (T : CType B) : DeclToken → CType B
  | .const => T.addConst
  | .star => .pointer T false

/-- The tokens after the type name, read from left to right. -/
def CType.extendAll (T : CType B) (tokens : List DeclToken) : CType B :=
  tokens.foldl CType.extend T

/-- What follows the type name is a sequence of declarator tokens; a second type name is an error. -/
def readDeclarator (T : CType B) : List (TypeToken B) → Option (CType B)
  | [] => some T
  | .decl token :: rest => readDeclarator (T.extend token) rest
  | .name _ :: _ => none

/-- Declaration specifiers: a `const` before the type name qualifies the named type itself,
    wherever the stars of the declarator are. -/
def readSpecifiers (sawConst : Bool) : List (TypeToken B) → Option (CType B)
  | .decl .const :: rest => readSpecifiers true rest
  | .name b :: rest =>
      readDeclarator (if sawConst then (typedefs b).addConst else typedefs b) rest
  | _ => none

/-- The type that a type text denotes, `none` when the text is not a type. -/
def denote (text : List (TypeToken B)) : Option (CType B) :=
  readSpecifiers typedefs false text

end Denotation

/-- A payload `TYPE` as the user spells it: a type name followed by `*` and `const` tokens. -/
structure TypeName (B : Type) where
  base : B
  tail : List DeclToken
deriving DecidableEq, Repr

namespace TypeName

variable {B : Type} (typedefs : B → CType B) (TYPE : TypeName B)

/-- The text that a macro splices for `TYPE`. -/
def text : List (TypeToken B) :=
  .name TYPE.base :: TYPE.tail.map .decl

/-- The type that `TYPE` alone denotes: the type of the union member and of the payload. -/
def denoted : CType B :=
  (typedefs TYPE.base).extendAll TYPE.tail

/-- The type that `const TYPE` denotes: the `const` lands on the named type, left of every star. -/
def westConst : CType B :=
  (typedefs TYPE.base).addConst.extendAll TYPE.tail

/-- The spelling has a star. -/
def hasStar : Bool :=
  TYPE.tail.contains .star

/-- The innermost named type is `const` on its own: by its typedef or by a `const` before the first
    star. -/
def baseIsConst : Bool :=
  (typedefs TYPE.base).isConst || TYPE.tail.head? == some .const

end TypeName

section DenotationLemmas

variable {B : Type} (typedefs : B → CType B)

@[simp] theorem CType.extendAll_nil (T : CType B) : T.extendAll [] = T := rfl

@[simp] theorem CType.extendAll_cons (T : CType B) (token : DeclToken) (tokens : List DeclToken) :
    T.extendAll (token :: tokens) = (T.extend token).extendAll tokens := rfl

@[simp] theorem CType.extend_const (T : CType B) : T.extend .const = T.addConst := rfl

@[simp] theorem CType.extend_star (T : CType B) : T.extend .star = .pointer T false := rfl

theorem readDeclarator_map_decl (T : CType B) (tokens : List DeclToken) :
    readDeclarator T (tokens.map .decl) = some (T.extendAll tokens) := by
  induction tokens generalizing T with
  | nil => rfl
  | cons token tokens ih => exact ih (T.extend token)

/-- A text that only consists of declarator tokens after `TYPE` extends the type of `TYPE`. -/
theorem denote_text_append (TYPE : TypeName B) (tokens : List DeclToken) :
    denote typedefs (TYPE.text ++ tokens.map .decl) =
      some ((TYPE.denoted typedefs).extendAll tokens) := by
  have joined : TYPE.tail.map TypeToken.decl ++ tokens.map TypeToken.decl =
      ((TYPE.tail ++ tokens).map TypeToken.decl : List (TypeToken B)) := by simp
  simp only [denote, TypeName.text, List.cons_append, readSpecifiers, joined,
    readDeclarator_map_decl, TypeName.denoted]
  simp [CType.extendAll, List.foldl_append]

/-- `TYPE` denotes the payload type. -/
theorem denote_text (TYPE : TypeName B) :
    denote typedefs TYPE.text = some (TYPE.denoted typedefs) := by
  simpa using denote_text_append typedefs TYPE []

/-- `TYPE *` is a pointer to the payload type. -/
theorem denote_text_star (TYPE : TypeName B) :
    denote typedefs (TYPE.text ++ [.star]) = some (.pointer (TYPE.denoted typedefs) false) := by
  simpa using denote_text_append typedefs TYPE [.star]

/-- `TYPE const *` is a pointer to the `const` payload type, whatever stars `TYPE` has. -/
theorem denote_text_const_star (TYPE : TypeName B) :
    denote typedefs (TYPE.text ++ [.const, .star]) =
      some (.pointer (TYPE.denoted typedefs).addConst false) := by
  simpa using denote_text_append typedefs TYPE [.const, .star]

/-- `const TYPE *` is a pointer to `const TYPE`, whose `const` is on the named type. -/
theorem denote_const_text_star (TYPE : TypeName B) :
    denote typedefs (.const :: (TYPE.text ++ [.star])) =
      some (.pointer (TYPE.westConst typedefs) false) := by
  have joined : TYPE.tail.map TypeToken.decl ++ [TypeToken.star] =
      ((TYPE.tail ++ [DeclToken.star]).map TypeToken.decl : List (TypeToken B)) := by simp
  simp only [denote, TypeName.text, List.cons_append, readSpecifiers, joined,
    readDeclarator_map_decl, TypeName.westConst]
  simp [CType.extendAll, List.foldl_append]

end DenotationLemmas

end GenericSumType
