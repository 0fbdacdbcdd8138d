/-
Module: GenericSumType.Examples.CacheLookup
Layer: Examples
Purpose: `examples/either_demo.c`: a cache lookup that misses or hits, and the loop that resolves a key
  either way.
Imports: GenericSumType.Header.Predicates, GenericSumType.Header.Program, GenericSumType.Library.CString,
  GenericSumType.Library.SignedInt
Trusted boundary: human-reviewed transcription of the demo
Main exports: Lookup, cacheGet, onMiss, onHit, valueOrFetch, resolveKey, resolveAll
Open obligations: none
-/
import GenericSumType.Header.Predicates
import GenericSumType.Header.Program
import GenericSumType.Library.CString
import GenericSumType.Library.SignedInt

namespace GenericSumType

namespace CacheLookup

open CString SignedInt

inductive TypeText where
  | Miss
  | Hit
  | int
deriving DecidableEq, Repr

variable (INT : IntType)

structure Miss where
  key : INT.Value

structure Hit where
  value : INT.Value

def model : TypeModel TypeText where
  typedefs b := .named b false
  Val
    | .named .Miss _ => Miss INT
    | .named .Hit _ => Hit INT
    | .named .int _ => INT.Value
    | .pointer _ _ => Unit
  zero
    | .named .Miss _ => { key := INT.zero }
    | .named .Hit _ => { value := INT.zero }
    | .named .int _ => INT.zero
    | .pointer _ _ => ()

/-- `LOOKUP` -/
def Lookup : SumInstance TypeText where
  NAME := "Lookup"
  VARIANTS :=
    [{ tag := "left", type := { base := .Miss, tail := [] } },
      { tag := "right", type := { base := .Hit, tail := [] } }]
  MATCH_CONST_FN := "Lookup_value_or_fetch"
  RET_TYPE := [.name .int]
  nonempty := by simp
  tagsDistinct := by simp
  onParamsVisible := by decide
  copyParamsVisible := by decide

variable {INT}

/-- `Lookup_new_left(m)` -/
def newLeft (m : Miss INT) : Except Fault (RawSum (model INT)) :=
  Lookup.decl.callCtor "Lookup_new_left" ⟨.named .Miss false, m⟩

/-- `Lookup_new_right(h)` -/
def newRight (h : Hit INT) : Except Fault (RawSum (model INT)) :=
  Lookup.decl.callCtor "Lookup_new_right" ⟨.named .Hit false, h⟩

/-- Even keys are in the cache; `%` truncates towards zero. -/
def cacheGet (key : INT.Value) : Except Overflow (Except Fault (RawSum (model INT))) :=
  if key.1.tmod 2 = 0 then do
    let value ← INT.result (key.1 * 10)
    .ok (newRight { value := value })
  else
    .ok (newLeft { key := key })

/-- What a handler prints before its value is computed, and the value. -/
abbrev Resolved (INT : IntType) : Type := Line × Except Overflow INT.Value

def onMiss (m : Miss INT) : Resolved INT :=
  (⟨"  miss key=%d -> fetch\n", [.d m.key.1]⟩, INT.result (m.key.1 * 10))

def onHit (h : Hit INT) : Resolved INT := (⟨"  hit value=%d\n", [.d h.value.1]⟩, .ok h.value)

/-- The handlers in list order. -/
def handlers : (i : Fin Lookup.size) → Lookup.Payload (model INT) i → Resolved INT
  | ⟨0, _⟩ => onMiss
  | ⟨1, _⟩ => onHit

/-- `Lookup_value_or_fetch(&r, on_miss, on_hit)` -/
def valueOrFetch (printed : List Line) (r : RawSum (model INT)) :
    Except Fault (List Line × Except Overflow INT.Value) := do
  match ← Lookup.matchConstFn.run Lookup.decl .default
      (Lookup.arguments (model INT) (R := fun _ => Except Overflow INT.Value)
        fun i w x => (w ++ [(handlers i x).1], x, (handlers i x).2)) printed r with
  | (done, .value _ value) => .ok (done.world, value)
  | _ => .error .unreachable

/-- The body of the loop; nothing is defined after an overflow. -/
def resolveKey (printed : List Line) (key : INT.Value) : Except Fault (Except Overflow (List Line)) :=
  match cacheGet key with
  | .error e => .ok (.error e)
  | .ok made => do
      let r ← made
      let isHit ← Lookup.decl.callPredicate (tagPredicate "Lookup" "right") r
      let printed := printed ++ [⟨"key=%d is_hit=%d\n", [.d key.1, .d isHit]⟩]
      match ← valueOrFetch printed r with
      | (_, .error e) => .ok (.error e)
      | (printed, .ok v) => .ok (.ok (printed ++ [⟨"  resolved value = %d\n", [.d v.1]⟩]))

/-- One turn of the loop. -/
def resolveNext (printed : Except Overflow (List Line)) (key : INT.Value) :
    Except Fault (Except Overflow (List Line)) :=
  match printed with
  | .error e => .ok (.error e)
  | .ok printed => resolveKey printed key

/-- The loop, over any keys. -/
def resolveAll (keys : List INT.Value) : Except Fault (Except Overflow (List Line)) :=
  keys.foldlM resolveNext (.ok [])

end CacheLookup

end GenericSumType
