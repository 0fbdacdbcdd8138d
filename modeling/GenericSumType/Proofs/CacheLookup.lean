/-
Module: GenericSumType.Proofs.CacheLookup
Layer: Proofs
Purpose: Whether a key is in the cache shows in the log only: a key resolves to ten times itself either way,
  and the loop is defined exactly when these values are in range.
Imports: GenericSumType.Examples.CacheLookup, GenericSumType.Proofs.Predicates
Trusted boundary: none
Main exports: keyLines, resolveKey_eq, cache_is_transparent
Open obligations: none
-/
import GenericSumType.Examples.CacheLookup
import GenericSumType.Proofs.Predicates

namespace GenericSumType

namespace CacheLookup

open CString SignedInt

variable {INT : IntType}

/-- Even keys are in the cache. -/
def Cached (key : Int) : Prop := key.tmod 2 = 0

instance (key : Int) : Decidable (Cached key) := inferInstanceAs (Decidable (_ = _))

/-- What the loop prints for a key. -/
def keyLines (key : Int) : List Line :=
  [⟨"key=%d is_hit=%d\n", [.d key, .d (if Cached key then 1 else 0)]⟩,
    if Cached key then ⟨"  hit value=%d\n", [.d (key * 10)]⟩ else ⟨"  miss key=%d -> fetch\n", [.d key]⟩,
    ⟨"  resolved value = %d\n", [.d (key * 10)]⟩]

section Lookup

def missKind : Fin Lookup.size := ⟨0, Nat.zero_lt_two⟩
def hitKind : Fin Lookup.size := ⟨1, Nat.one_lt_two⟩

theorem newLeft_eq (m : Miss INT) : newLeft m = .ok (Lookup.encode (model INT) ⟨missKind, m⟩) :=
  Lookup.callCtor_encode (model INT) missKind m

theorem newRight_eq (h : Hit INT) : newRight h = .ok (Lookup.encode (model INT) ⟨hitKind, h⟩) :=
  Lookup.callCtor_encode (model INT) hitKind h

theorem isRight_encode (c : Coproduct (Lookup.Payload (model INT))) :
    Lookup.decl.callPredicate (tagPredicate "Lookup" "right") (Lookup.encode (model INT) c) =
      .ok (if c.1 = hitKind then 1 else 0) := by
  have compared := callPredicate_tag Lookup hitKind (Lookup.encode (model INT) c)
  have active : (((c.1 : Nat) : Int) = ((hitKind : Nat) : Int)) ↔ c.1 = hitKind := by
    rw [Int.ofNat_inj, Fin.ext_iff]
  exact compared.trans (congrArg Except.ok (if_congr active rfl rfl))

theorem valueOrFetch_encode (printed : List Line) (c : Coproduct (Lookup.Payload (model INT))) :
    valueOrFetch printed (Lookup.encode (model INT) c) =
      .ok (printed ++ [(handlers c.1 c.2).1], (handlers c.1 c.2).2) := by
  rw [valueOrFetch, Lookup.run_matchConst]
  rfl

end Lookup

section Resolve

/-- The loop body after a lookup. -/
theorem resolveKey_of_lookup {key : INT.Value} {c : Coproduct (Lookup.Payload (model INT))} {line : Line}
    {value : Except Overflow INT.Value} (looked : cacheGet key = .ok (.ok (Lookup.encode (model INT) c)))
    (handled : handlers c.1 c.2 = (line, value)) (printed : List Line) :
    resolveKey printed key =
      .ok (value.map fun v =>
        printed ++
          [⟨"key=%d is_hit=%d\n", [.d key.1, .d (if c.1 = hitKind then 1 else 0)]⟩, line,
            ⟨"  resolved value = %d\n", [.d v.1]⟩]) := by
  simp only [resolveKey, looked, ok_bind, isRight_encode, valueOrFetch_encode, handled]
  cases value with
  | error e => rfl
  | ok v => simp [Except.map]

theorem cacheGet_miss {key : INT.Value} (absent : ¬Cached key.1) :
    cacheGet key = .ok (.ok (Lookup.encode (model INT) ⟨missKind, ({ key := key } : Miss INT)⟩)) :=
  (if_neg absent).trans (congrArg Except.ok (newLeft_eq _))

theorem cacheGet_hit {key : INT.Value} (cached : Cached key.1) (inRange : INT.InRange (key.1 * 10)) :
    cacheGet key =
      .ok (.ok (Lookup.encode (model INT) ⟨hitKind, ({ value := ⟨key.1 * 10, inRange⟩ } : Hit INT)⟩)) := by
  refine (if_pos cached).trans ?_
  rw [result_of_inRange inRange, ok_bind]
  exact congrArg Except.ok (newRight_eq _)

theorem cacheGet_overflow {key : INT.Value} (cached : Cached key.1) (outside : ¬INT.InRange (key.1 * 10)) :
    cacheGet key = .error .overflow := by
  refine (if_pos cached).trans ?_
  rw [result_of_not_inRange outside]
  rfl

/-- A key resolves to ten times itself, cached or not. -/
theorem resolveKey_eq (key : INT.Value) (printed : List Line) :
    resolveKey printed key =
      .ok (if INT.InRange (key.1 * 10) then .ok (printed ++ keyLines key.1) else .error .overflow) := by
  by_cases inRange : INT.InRange (key.1 * 10)
  · rw [if_pos inRange]
    by_cases cached : Cached key.1
    · rw [resolveKey_of_lookup (cacheGet_hit cached inRange) rfl, keyLines, if_pos cached, if_pos cached]
      rfl
    · rw [resolveKey_of_lookup (cacheGet_miss cached) rfl, keyLines, if_neg cached, if_neg cached,
        result_of_inRange inRange]
      rfl
  · rw [if_neg inRange]
    by_cases cached : Cached key.1
    · simp only [resolveKey, cacheGet_overflow cached inRange]
    · rw [resolveKey_of_lookup (cacheGet_miss cached) rfl, result_of_not_inRange inRange]
      rfl

theorem resolveFrom_overflow (keys : List INT.Value) (e : Overflow) :
    keys.foldlM resolveNext (.error e) = .ok (.error e) := by
  induction keys with
  | nil => rfl
  | cons key keys ih =>
      rw [List.foldlM_cons, resolveNext, ok_bind]
      exact ih

theorem resolveFrom_eq (keys : List INT.Value) (printed : List Line) :
    keys.foldlM resolveNext (.ok printed) =
      .ok
        (if ∀ key ∈ keys, INT.InRange (key.1 * 10) then
          .ok (printed ++ keys.flatMap fun key => keyLines key.1)
        else .error .overflow) := by
  induction keys generalizing printed with
  | nil => rw [if_pos (by simp), List.flatMap_nil, List.append_nil]; rfl
  | cons key keys ih =>
      rw [List.foldlM_cons, resolveNext, resolveKey_eq, ok_bind]
      by_cases first : INT.InRange (key.1 * 10)
      · rw [if_pos first, ih]
        simp only [List.forall_mem_cons, first, true_and, List.flatMap_cons, List.append_assoc]
      · have some_outside : ¬∀ key' ∈ key :: keys, INT.InRange (key'.1 * 10) :=
          fun all => first (all key List.mem_cons_self)
        rw [if_neg first, resolveFrom_overflow, if_neg some_outside]

/-- The loop is defined exactly when ten times every key is in range; every key then resolves to that
    value, and only the line in between shows whether it was cached. -/
theorem cache_is_transparent (keys : List INT.Value) :
    ((∀ key ∈ keys, INT.InRange (key.1 * 10)) →
        resolveAll keys = .ok (.ok (keys.flatMap fun key => keyLines key.1))) ∧
      ((∃ key ∈ keys, ¬INT.InRange (key.1 * 10)) → resolveAll keys = .ok (.error .overflow)) := by
  rw [resolveAll, resolveFrom_eq]
  constructor
  · intro inRange
    rw [if_pos inRange, List.nil_append]
  · rintro ⟨key, member, outside⟩
    rw [if_neg fun all => outside (all key member)]

end Resolve

end CacheLookup

end GenericSumType
