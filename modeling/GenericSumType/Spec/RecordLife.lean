/-
Module: GenericSumType.Spec.RecordLife
Layer: Spec
Purpose: What a client of the log records may do and what it expects.  A record variable is absent, holds
  a text or a number, or has been destroyed; records do not share anything here, so that constructing,
  copying and destroying one says nothing about the others.
Imports: GenericSumType.Examples.ResourceDemo, GenericSumType.Spec.Coproduct
Trusted boundary: human-reviewed statement of purpose
Main exports: Content, Life, Allowed, textOwner, Keeps
Open obligations: none
-/
import GenericSumType.Examples.ResourceDemo
import GenericSumType.Spec.Coproduct

namespace GenericSumType

namespace ResourceDemo

open BlockHeap (CStr Memory Exclusive)

inductive Content where
  | text (s : CStr)
  | number (n : Int)

inductive Life where
  | absent
  | alive (c : Content)
  | destroyed

def Life.isAlive : Life → Prop
  | alive _ => True
  | _ => False

variable {Var Block : Type} [DecidableEq Var] [DecidableEq Block]

/-- The discipline of the client, and what each operation means to it.  A variable is constructed only
    when it holds no live record, a copy is made of a live record, and the allocator hands out a block
    that is not live. -/
inductive Allowed (life : Var → Life) (live : Finset Block) :
    RecordOp Var Block → (Var → Life) → Prop where
  | newText {v : Var} {s : CStr} {b : Block} (vacant : ¬ (life v).isAlive) (fresh : b ∉ live) :
      Allowed life live (.newText v s b) (Function.update life v (.alive (.text s)))
  | newNumber {v : Var} {n : Int} (vacant : ¬ (life v).isAlive) :
      Allowed life live (.newNumber v n) (Function.update life v (.alive (.number n)))
  | copyText {dst src : Var} {s : CStr} {b : Block} (vacant : ¬ (life dst).isAlive)
      (source : life src = .alive (.text s)) (fresh : b ∉ live) :
      Allowed life live (.copy dst src b) (Function.update life dst (.alive (.text s)))
  | copyNumber {dst src : Var} {n : Int} {b : Block} (vacant : ¬ (life dst).isAlive)
      (source : life src = .alive (.number n)) :
      Allowed life live (.copy dst src b) (Function.update life dst (.alive (.number n)))
  | destroy {v : Var} (constructed : life v ≠ .absent) :
      Allowed life live (.destroy v) (Function.update life v .destroyed)

/-- The states that programs of allowed operations reach, with what the client expects there. -/
inductive Reached : State Var Block → (Var → Life) → Prop where
  | start (b : Block) :
      Reached
        { vars := fun _ => none
          world := { blocks := ∅, next := b, violations := [] } }
        fun _ => .absent
  | step {s s' : State Var Block} {life life' : Var → Life} {op : RecordOp Var Block}
      (before : Reached s life) (allowed : Allowed life s.world.blocks.keys op life')
      (done : exec s op = .ok s') : Reached s' life'

/-- A record as a coproduct value. -/
abbrev Record (Block : Type) : Type := Coproduct (LogRecord.Payload (model Block))

def textRecord (p : Option Block) : Record Block :=
  ⟨⟨0, Nat.zero_lt_two⟩, ({ msg := p } : LogText Block)⟩

def numberRecord (n : Int) : Record Block :=
  ⟨⟨1, Nat.one_lt_two⟩, ({ value := n } : LogMetric)⟩

/-- The block that a record owns. -/
def ownedBlock : Record Block → Option Block
  | ⟨⟨0, _⟩, t⟩ => LogText.msg t
  | ⟨⟨1, _⟩, _⟩ => none

abbrev Records (Var Block : Type) := CoproductState (LogRecord.Payload (model Block)) Var (Memory Block)

/-- The block that a variable owns. -/
def textOwner (t : Records Var Block) (v : Var) : Option Block := (t.vars v).bind ownedBlock

/-- A variable is in the state that the client expects. -/
def HoldsLife (t : Records Var Block) (v : Var) : Life → Prop
  | .absent => t.vars v = none
  | .alive (.text s) =>
      ∃ b, t.vars v = some (textRecord (some b)) ∧ t.world.blocks.lookup b = some s.stored
  | .alive (.number n) => t.vars v = some (numberRecord n)
  | .destroyed => t.vars v = some (textRecord none) ∨ ∃ n, t.vars v = some (numberRecord n)

/-- Nothing has gone wrong in memory, the live blocks are exactly the ones that records own, and every
    variable holds what the client expects. -/
structure Keeps (t : Records Var Block) (life : Var → Life) : Prop where
  clean : t.world.violations = []
  exclusive : Exclusive (textOwner t) t.world.blocks
  holds : ∀ v, HoldsLife t v (life v)

end ResourceDemo

end GenericSumType
