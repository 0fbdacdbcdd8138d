/-
Module: GenericSumType.Header.Execution
Layer: Header
Purpose: What the functions generated by `generic_sum_type.h` do at run time.  A sum value is the pair
  of its tag and a raw union that remembers which member was stored last; reading another member, a
  handler bound to the wrong type, an unresolved name and reaching `SUM_UNREACHABLE()` are faults.
  All names (enumerators, members, parameters, case labels) are resolved by lookup in the tables of
  `Header.Expansion`, as a compiler resolves them.
Imports: GenericSumType.Header.Expansion, GenericSumType.Library.KeyedList
Trusted boundary: human-reviewed semantics of the generated C functions
Main exports: TypeModel, RawSum, Fault, Handler, SwitchFn.select, SwitchFn.run, callCtor, callGetter,
  zeroInit
Open obligations: none
-/
import GenericSumType.Header.Expansion
import GenericSumType.Library.KeyedList

namespace GenericSumType

/-- What the type names of a program mean: their types, the values of each type, and the value that
    zero initialisation gives. -/
structure TypeModel (B : Type) where
  typedefs : B → CType B
  Val : CType B → Type
  zero : (T : CType B) → Val T

/-- The values of an object of type `T`; a top-level `const` does not change which values it has. -/
abbrev TypeModel.Payload {B : Type} (M : TypeModel B) (T : CType B) : Type :=
  M.Val T.unqualified

/-- A payload value together with the C type of the object it was stored in. -/
abbrev TypeModel.AnyPayload {B : Type} (M : TypeModel B) : Type :=
  (T : CType B) × M.Payload T

/-- The payload type of one entry of a variant list. -/
abbrev TypeModel.payloadType {B : Type} (M : TypeModel B) (v : Variant B) : CType B :=
  v.type.denoted M.typedefs

/-- The contents of `as`: the member stored into last, with what was stored. -/
structure RawUnion {B : Type} (M : TypeModel B) where
  member : Ident
  content : M.AnyPayload

/-- A `NAME` object.  The tag is a plain `int`, so it may hold any value. -/
structure RawSum {B : Type} (M : TypeModel B) where
  tag : Int
  as : RawUnion M

/-- What can go wrong in a generated function. -/
inductive Fault where
  /-- An object was read before it was constructed. -/
  | uninitialized
  /-- A union member other than the one stored last was read. -/
  | inactiveMember
  /-- `SUM_UNREACHABLE()` was reached. -/
  | unreachable
  /-- A value or a handler of another payload type was used. -/
  | typeMismatch
  /-- A name of the generated code refers to nothing. -/
  | unresolvedName
deriving DecidableEq, Repr

/-- `Option` lookups that the generated code relies on. -/
def resolve {α : Type} : Option α → Except Fault α
  | some a => .ok a
  | none => .error .unresolvedName

@[simp] theorem resolve_some {α : Type} (a : α) : resolve (some a) = .ok a := rfl

section Members

variable {B : Type} [DecidableEq B] {M : TypeModel B}

/-- The value of an enumeration constant: its position in the enum. -/
def SumTypeDecl.enumValue (decl : SumTypeDecl B) (name : Ident) : Option Int :=
  (KeyedList.position id decl.enumerators name).map Int.ofNat

/-- The declared type of a union member. -/
def SumTypeDecl.memberType (decl : SumTypeDecl B) (typedefs : B → CType B) (name : Ident) :
    Option (CType B) :=
  (KeyedList.entry UnionMember.name decl.members name).map fun m => m.type.denoted typedefs

/-- Reading `as.name`. -/
def RawUnion.readMember (u : RawUnion M) (name : Ident) : Except Fault M.AnyPayload :=
  if u.member = name then .ok u.content else .error .inactiveMember

/-- Storing into `as.name` makes it the active member; the stored value must have its type. -/
def SumTypeDecl.writeMember (decl : SumTypeDecl B) (name : Ident) (x : M.AnyPayload) :
    Except Fault (RawUnion M) := do
  let T ← resolve (decl.memberType M.typedefs name)
  if T.unqualified = x.1.unqualified then
    .ok { member := name, content := x }
  else
    .error .typeMismatch

/-- `NAME_new_<tag>(v)` -/
def SumTypeDecl.callCtor (decl : SumTypeDecl B) (fnName : Ident) (v : M.AnyPayload) :
    Except Fault (RawSum M) := do
  let ctor ← resolve (KeyedList.entry Ctor.fnName decl.ctors fnName)
  let tag ← resolve (decl.enumValue ctor.tag)
  let as ← decl.writeMember ctor.member v
  .ok { tag := tag, as := as }

/-- The pointer a getter returns: `none` is `NULL`, `some m` is `&self->as.m`. -/
def SumTypeDecl.callGetter (decl : SumTypeDecl B) (getters : List (Getter B)) (fnName : Ident)
    (self : RawSum M) : Except Fault (Option Ident) := do
  let getter ← resolve (KeyedList.entry Getter.fnName getters fnName)
  let tag ← resolve (decl.enumValue getter.tag)
  .ok (if self.tag = tag then some getter.member else none)

/-- The value `{ 0 }`: the tag is zero and, since `as` is left to default initialisation, its first
    named member is zero (C11 6.7.9p10). -/
def SumTypeDecl.zeroInit (decl : SumTypeDecl B) (M : TypeModel B) : Except Fault (RawSum M) := do
  let first ← resolve decl.members.head?
  .ok
    { tag := 0
      as :=
        { member := first.name
          content := ⟨first.type.denoted M.typedefs, M.zero _⟩ } }

/-- `NAME_new_unreachable_(placeholder)` -/
def NewGeneric.call (_generic : NewGeneric) (decl : SumTypeDecl B) (M : TypeModel B) :
    Except Fault (RawSum M) :=
  decl.zeroInit M

end Members

section Dispatching

variable {B : Type} [DecidableEq B] {M : TypeModel B} {σ : Type} {R : CType B → Type}

/-- A handler declared for payloads of type `type`.  It may change the rest of the program state `σ`
    and the payload it is given a pointer to, and it returns an `R type`. -/
structure Handler (M : TypeModel B) (σ : Type) (R : CType B → Type) where
  type : CType B
  run : σ → M.Payload type → σ × M.Payload type × R type

/-- The lock hooks around the switch of a dispatch, as effects on the program state. -/
structure CtxHooks (σ : Type) where
  lock : σ → σ
  unlock : σ → σ

/-- The default hooks, `((void)0)`. -/
def CtxHooks.default : CtxHooks σ where
  lock w := w
  unlock w := w

/-- The value of a case label inside `f`.  A parameter of the same name would hide the enumerator, and
    a parameter is not a constant. -/
def SwitchFn.labelValue (f : SwitchFn B) (decl : SumTypeDecl B) (label : Ident) : Option Int :=
  if label ∈ f.params.map HandlerParam.name then none else decl.enumValue label

/-- The case that `switch (self->tag)` enters, if any. -/
def SwitchFn.select (f : SwitchFn B) (decl : SumTypeDecl B) (tag : Int) : Option SwitchCase :=
  f.cases.find? fun c => f.labelValue decl c.label = some tag

/-- Arguments are bound to parameters by position; a call in the body names the parameter. -/
def SwitchFn.argPosition (f : SwitchFn B) (callee : Ident) : Option Nat :=
  KeyedList.position HandlerParam.name f.params callee

/-- One executed handler call: the position of the handler among the arguments, and the payload it
    received. -/
abbrev HandlerCall (M : TypeModel B) : Type := Nat × M.AnyPayload

/-- The state while a generated function runs. -/
structure CallState (M : TypeModel B) (σ : Type) where
  world : σ
  self : RawSum M
  calls : List (HandlerCall M)

/-- What a generated function returns: nothing, the value of a handler, or a new sum whose tag and
    member are given by name. -/
inductive Returned (R : CType B → Type) where
  | nothing
  | value (T : CType B) (r : R T)
  | sum (tag target : Ident) (T : CType B) (r : R T)

/-- Apply a handler to a payload of the same type. -/
def Handler.apply (h : Handler M σ R) (w : σ) (x : M.AnyPayload) :
    Except Fault (σ × M.AnyPayload × (T : CType B) × R T) :=
  if same : x.1.unqualified = h.type.unqualified then
    let out := h.run w (cast (congrArg M.Val same) x.2)
    .ok (out.1, ⟨h.type, out.2.1⟩, ⟨h.type, out.2.2⟩)
  else
    .error .typeMismatch

/-- `callee(&self->as.member)`: the handler reads the payload in place and may overwrite it, unless
    `self` points to a `const` object. -/
def SwitchFn.callHandler (f : SwitchFn B) (args : List (Handler M σ R)) (body : CaseBody)
    (s : CallState M σ) : Except Fault (CallState M σ × (T : CType B) × R T) := do
  let k ← resolve (f.argPosition body.callee)
  let h ← resolve args[k]?
  let x ← s.self.as.readMember body.member
  let (w, y, r) ← h.apply s.world x
  let written : RawSum M := { s.self with as := { member := body.member, content := y } }
  .ok
    ({ world := w
       self := if f.selfConst then s.self else written
       calls := s.calls ++ [(k, x)] }, r)

/-- Run the statements of a generated body. -/
def SwitchFn.runStmts (f : SwitchFn B) (decl : SumTypeDecl B) (hooks : CtxHooks σ)
    (args : List (Handler M σ R)) :
    List BodyStmt → CallState M σ → Except Fault (CallState M σ × Returned R)
  | [], s => .ok (s, .nothing)
  | .lock :: rest, s =>
      f.runStmts decl hooks args rest { s with world := hooks.lock s.world }
  | .unlock :: rest, s =>
      f.runStmts decl hooks args rest { s with world := hooks.unlock s.world }
  | .unreachable :: _, _ => .error .unreachable
  | .switch :: rest, s =>
      match f.select decl s.self.tag with
      | none => f.runStmts decl hooks args rest s
      | some c => do
          let (s', r) ← f.callHandler args c.body s
          match c.body with
          | .returnCall _ _ => .ok (s', .value r.1 r.2)
          | .callReturn _ _ => .ok (s', .nothing)
          | .returnSum tag target _ _ => .ok (s', .sum tag target r.1 r.2)
          | .callBreak _ _ => f.runStmts decl hooks args rest s'

/-- A call of a generated function. -/
def SwitchFn.run (f : SwitchFn B) (decl : SumTypeDecl B) (hooks : CtxHooks σ)
    (args : List (Handler M σ R)) (w : σ) (self : RawSum M) :
    Except Fault (CallState M σ × Returned R) :=
  f.runStmts decl hooks args f.body { world := w, self := self, calls := [] }

/-- The value that `DEFINE_SUM_COPY` returns: the compound literal names its tag and its member. -/
def Returned.toSum (decl : SumTypeDecl B) :
    Returned (fun T => M.Payload T) → Except Fault (RawSum M)
  | .sum tag target T r => do
      let tagValue ← resolve (decl.enumValue tag)
      let as ← decl.writeMember target ⟨T, r⟩
      .ok { tag := tagValue, as := as }
  | _ => .error .unreachable

end Dispatching

end GenericSumType
