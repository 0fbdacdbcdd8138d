/-
Module: GenericSumType.Library.Brackets
Layer: Library
Purpose: Words of opening and closing marks over any set of keys.  `scan` is the usual stack reading of
  a word, `Nested` the grammar of properly nested words in which a mark `within k` only occurs inside a
  pair of `k`.  A word that the stack reading empties is nested, and opens each key as often as it
  closes it.
Imports: Mathlib.Data.List.Basic
Trusted boundary: none
Main exports: Mark, scan, scan_append, Nested, nested_of_scan, scan_count
Open obligations: none
-/
import Mathlib.Data.List.Basic

namespace Brackets

variable {κ : Type*} [DecidableEq κ]

inductive Mark (κ : Type*) where
  | opens (k : κ)
  | closes (k : κ)
  | within (k : κ)
  | neutral
deriving DecidableEq, Repr

/-- One mark, read with the open keys on a stack: a key is closed only at the top, and `within` asks
    for its key anywhere on the stack. -/
def scanMark (held : List κ) : Mark κ → Option (List κ)
  | .opens k => some (k :: held)
  | .closes k =>
      match held with
      | top :: rest => if top = k then some rest else none
      | [] => none
  | .within k => if k ∈ held then some held else none
  | .neutral => some held

/-- The stack that is left after reading a word. -/
def scan : List κ → List (Mark κ) → Option (List κ)
  | held, [] => some held
  | held, m :: word => (scanMark held m).bind fun next => scan next word

@[simp] theorem scan_nil (held : List κ) : scan held [] = some held := rfl

theorem scan_append (held : List κ) (front back : List (Mark κ)) :
    scan held (front ++ back) = (scan held front).bind fun next => scan next back := by
  induction front generalizing held with
  | nil => rfl
  | cons m front ih =>
      rw [List.cons_append, scan, scan]
      cases scanMark held m with
      | none => rfl
      | some next => exact ih next

/-- Reading a word and then one more mark. -/
theorem scan_concat {held next : List κ} {word : List (Mark κ)} {m : Mark κ}
    (before : scan held word = some next) : scan held (word ++ [m]) = scanMark next m := by
  rw [scan_append, before]
  cases after : scanMark next m with
  | none => simp [scan, after]
  | some last => simp [scan, after]

/-- Properly nested words, given the keys that are open around the word. -/
inductive Nested : List κ → List (Mark κ) → Prop where
  | nil (held : List κ) : Nested held []
  | neutral {held : List κ} {word : List (Mark κ)} (rest : Nested held word) :
      Nested held (.neutral :: word)
  | within {held : List κ} {k : κ} {word : List (Mark κ)} (isHeld : k ∈ held)
      (rest : Nested held word) : Nested held (.within k :: word)
  | pair {held : List κ} {k : κ} {inner word : List (Mark κ)} (body : Nested (k :: held) inner)
      (rest : Nested held word) : Nested held (.opens k :: (inner ++ .closes k :: word))

/-- A reading that ends below `k` splits at the mark that closes `k`. -/
theorem split_at_close {k : κ} {held out : List κ} (below : out.length ≤ held.length) :
    ∀ {word : List (Mark κ)}, scan (k :: held) word = some out →
      ∃ inner rest, word = inner ++ .closes k :: rest ∧ Nested (k :: held) inner ∧
        scan held rest = some out
  | [], read => by
      rw [scan_nil, Option.some.injEq] at read
      subst out
      exact absurd below (Nat.not_succ_le_self held.length)
  | m :: word, read => by
      cases m with
      | neutral =>
          have tail : scan (k :: held) word = some out := read
          obtain ⟨inner, rest, rfl, body, after⟩ := split_at_close below tail
          exact ⟨.neutral :: inner, rest, rfl, .neutral body, after⟩
      | within j =>
          by_cases isHeld : j ∈ k :: held
          · simp only [scan, scanMark, if_pos isHeld] at read
            have tail : scan (k :: held) word = some out := read
            obtain ⟨inner, rest, rfl, body, after⟩ := split_at_close below tail
            exact ⟨.within j :: inner, rest, rfl, .within isHeld body, after⟩
          · simp only [scan, scanMark, if_neg isHeld] at read
            exact absurd read (by simp)
      | closes j =>
          by_cases same : k = j
          · subst j
            simp only [scan, scanMark, if_true] at read
            exact ⟨[], word, rfl, .nil _, read⟩
          · simp only [scan, scanMark, if_neg same] at read
            exact absurd read (by simp)
      | opens j =>
          have deeper : out.length ≤ (k :: held).length := Nat.le_succ_of_le below
          have tail : scan (j :: k :: held) word = some out := read
          obtain ⟨inner, rest, split, body, after⟩ := split_at_close deeper tail
          have shorter : rest.length < (Mark.opens j :: word).length := by
            rw [split]
            simp
            omega
          obtain ⟨inner', rest', rfl, body', after'⟩ := split_at_close below after
          refine ⟨.opens j :: (inner ++ .closes j :: inner'), rest', ?_, .pair body body', after'⟩
          rw [split]
          simp
  termination_by word => word.length

/-- A word that the stack reading empties is properly nested. -/
theorem nested_of_scan : ∀ {word : List (Mark κ)}, scan [] word = some [] → Nested [] word
  | [], _ => .nil _
  | m :: word, read => by
      cases m with
      | neutral =>
          have tail : scan [] word = some [] := read
          exact .neutral (nested_of_scan tail)
      | within k => exact absurd read (by simp [scan, scanMark])
      | closes k => exact absurd read (by simp [scan, scanMark])
      | opens k =>
          have tail : scan [k] word = some [] := read
          obtain ⟨inner, rest, split, body, after⟩ := split_at_close (Nat.le_refl _) tail
          have shorter : rest.length < (Mark.opens k :: word).length := by
            rw [split]
            simp
            omega
          rw [split]
          exact .pair body (nested_of_scan after)
  termination_by word => word.length

/-- Every key is opened as often as it is closed, but for those that are still open. -/
theorem scan_count {held out : List κ} {word : List (Mark κ)} (read : scan held word = some out)
    (k : κ) :
    word.count (.opens k) + held.count k = word.count (.closes k) + out.count k := by
  induction word generalizing held with
  | nil =>
      rw [scan_nil, Option.some.injEq] at read
      subst out
      simp
  | cons m word ih =>
      cases m with
      | neutral =>
          have rest := ih read
          simpa using rest
      | within j =>
          by_cases isHeld : j ∈ held
          · simp only [scan, scanMark, if_pos isHeld] at read
            have rest := ih read
            simpa using rest
          · simp only [scan, scanMark, if_neg isHeld] at read
            exact absurd read (by simp)
      | opens j =>
          have tail : scan (j :: held) word = some out := read
          have rest := ih tail
          by_cases same : j = k
          · subst j
            simp at rest ⊢
            omega
          · simpa [List.count_cons, same] using rest
      | closes j =>
          cases held with
          | nil => exact absurd read (by simp [scan, scanMark])
          | cons top held =>
              by_cases matching : top = j
              · subst j
                simp only [scan, scanMark, if_true] at read
                have rest := ih read
                by_cases same : top = k
                · subst k
                  simp at rest ⊢
                  omega
                · simpa [List.count_cons, same] using rest
              · simp only [scan, scanMark, if_neg matching] at read
                exact absurd read (by simp)

end Brackets
