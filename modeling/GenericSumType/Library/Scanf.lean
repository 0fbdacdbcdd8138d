/-
Module: GenericSumType.Library.Scanf
Layer: Library
Purpose: The conversion `%<width>d` of `sscanf`: the scanner, which skips white space and reads an optional
  sign and digits, and the numerals that it recognises.  The sign counts towards the width.
Imports: Mathlib.Algebra.Order.Ring.Nat, Mathlib.Data.List.TakeWhile
Trusted boundary: human-reviewed semantics of `sscanf` (C11 7.21.6.2) in the C locale
Main exports: scanInt, Numeral, scanInt_eq_some_iff, Numeral.bounds
Open obligations: none
-/
import Mathlib.Algebra.Order.Ring.Nat
import Mathlib.Data.List.TakeWhile

namespace Scanf

/-- `isspace` -/
def isSpace (b : UInt8) : Bool := b = 32 || (9 ≤ b && b ≤ 13)

/-- `isdigit` -/
def isDigit (b : UInt8) : Bool := 48 ≤ b && b ≤ 57

/-- `'+'` -/
def plusSign : UInt8 := 43

/-- `'-'` -/
def minusSign : UInt8 := 45

/-- The number that decimal digits denote. -/
def value (digits : List UInt8) : Nat := digits.foldl (fun n d => 10 * n + (d.toNat - 48)) 0

/-- The leading digits, as far as there is room. -/
def takeDigits : Nat → List UInt8 → List UInt8
  | 0, _ => []
  | _ + 1, [] => []
  | room + 1, b :: bytes => if isDigit b then b :: takeDigits room bytes else []

/-- At least one digit is needed. -/
def scanDigits (room : Nat) (bytes : List UInt8) : Option Nat :=
  match takeDigits room bytes with
  | [] => none
  | digits => some (value digits)

/-- `%<width>d`; nothing when the conversion fails. -/
def scanInt (width : Nat) (bytes : List UInt8) : Option Int :=
  match bytes.dropWhile isSpace with
  | [] => none
  | b :: rest =>
      if b = minusSign then (scanDigits (width - 1) rest).map fun (n : Nat) => -(n : Int)
      else if b = plusSign then (scanDigits (width - 1) rest).map fun (n : Nat) => (n : Int)
      else (scanDigits width (b :: rest)).map fun (n : Nat) => (n : Int)

/-- A longest run of digits with `rest` after it. -/
structure Longest (room : Nat) (digits rest : List UInt8) : Prop where
  digit : ∀ d ∈ digits, isDigit d
  fits : digits.length ≤ room
  stops : digits.length = room ∨ ∀ d tail, rest = d :: tail → isDigit d = false

/-- `bytes` begins with white space and a numeral of at most `width` characters that denotes the number,
    and no longer one. -/
inductive Numeral (width : Nat) (bytes : List UInt8) : Int → Prop where
  | unsigned (blanks digits rest : List UInt8) (split : bytes = blanks ++ (digits ++ rest))
      (blank : ∀ b ∈ blanks, isSpace b) (nonempty : digits ≠ [])
      (longest : Longest width digits rest) : Numeral width bytes (value digits)
  | plus (blanks digits rest : List UInt8) (split : bytes = blanks ++ plusSign :: (digits ++ rest))
      (blank : ∀ b ∈ blanks, isSpace b) (nonempty : digits ≠ [])
      (longest : Longest (width - 1) digits rest) : Numeral width bytes (value digits)
  | minus (blanks digits rest : List UInt8) (split : bytes = blanks ++ minusSign :: (digits ++ rest))
      (blank : ∀ b ∈ blanks, isSpace b) (nonempty : digits ≠ [])
      (longest : Longest (width - 1) digits rest) : Numeral width bytes (-(value digits : Int))

section Digits

theorem takeDigits_longest (room : Nat) (bytes : List UInt8) :
    ∃ rest, bytes = takeDigits room bytes ++ rest ∧ Longest room (takeDigits room bytes) rest := by
  induction bytes generalizing room with
  | nil =>
      cases room with
      | zero => exact ⟨[], rfl, by simp [takeDigits], Nat.le_refl 0, .inl rfl⟩
      | succ room => exact ⟨[], rfl, by simp [takeDigits], Nat.zero_le _, .inr (by simp)⟩
  | cons b bytes ih =>
      cases room with
      | zero => exact ⟨b :: bytes, rfl, by simp [takeDigits], Nat.le_refl 0, .inl rfl⟩
      | succ room =>
          by_cases digit : isDigit b
          · obtain ⟨rest, split, longest⟩ := ih room
            rw [takeDigits, if_pos digit]
            refine ⟨rest, congrArg (b :: ·) split, ?_, Nat.succ_le_succ longest.fits, ?_⟩
            · intro d member
              rcases List.mem_cons.mp member with rfl | member
              · exact digit
              · exact longest.digit d member
            · exact longest.stops.imp (congrArg (· + 1)) id
          · rw [takeDigits, if_neg digit]
            refine ⟨b :: bytes, rfl, by simp, Nat.zero_le _, .inr ?_⟩
            intro d tail same
            obtain ⟨rfl, _⟩ := List.cons.inj same
            exact Bool.eq_false_of_not_eq_true digit

theorem takeDigits_of_longest {room : Nat} {digits rest : List UInt8}
    (longest : Longest room digits rest) : takeDigits room (digits ++ rest) = digits := by
  induction digits generalizing room with
  | nil =>
      cases room with
      | zero => rfl
      | succ room =>
          cases rest with
          | nil => rfl
          | cons d tail =>
              have stops := longest.stops.resolve_left (by simp) d tail rfl
              rw [List.nil_append, takeDigits, stops]
              rfl
  | cons b digits ih =>
      cases room with
      | zero => cases longest.fits
      | succ room =>
          have digit := longest.digit b List.mem_cons_self
          have shorter : Longest room digits rest :=
            { digit := fun d member => longest.digit d (List.mem_cons_of_mem b member)
              fits := Nat.le_of_succ_le_succ longest.fits
              stops := longest.stops.imp_left Nat.succ.inj }
          rw [List.cons_append, takeDigits, if_pos digit, ih shorter]

theorem scanDigits_eq_some_iff {room : Nat} {bytes : List UInt8} {n : Nat} :
    scanDigits room bytes = some n ↔
      ∃ digits rest, bytes = digits ++ rest ∧ digits ≠ [] ∧ Longest room digits rest ∧
        n = value digits := by
  constructor
  · intro scanned
    obtain ⟨rest, split, longest⟩ := takeDigits_longest room bytes
    refine ⟨takeDigits room bytes, rest, split, ?_, longest, ?_⟩
    · intro empty
      rw [scanDigits, empty] at scanned
      cases scanned
    · rw [scanDigits] at scanned
      split at scanned
      · cases scanned
      · exact (Option.some.inj scanned).symm
  · rintro ⟨digits, rest, rfl, nonempty, longest, rfl⟩
    rw [scanDigits, takeDigits_of_longest longest]
    cases digits with
    | nil => exact absurd rfl nonempty
    | cons d digits => rfl

/-- Digits denote a number below the power of ten of their count. -/
theorem value_lt {digits : List UInt8} (digit : ∀ d ∈ digits, isDigit d) :
    value digits < 10 ^ digits.length := by
  have grows (n : Nat) : digits.foldl (fun n d => 10 * n + (d.toNat - 48)) n <
      (n + 1) * 10 ^ digits.length := by
    induction digits generalizing n with
    | nil => simp
    | cons d digits ih =>
        have bound : d.toNat ≤ 57 := by
          have isDigit := digit d List.mem_cons_self
          simp only [Scanf.isDigit, Bool.and_eq_true, decide_eq_true_eq] at isDigit
          exact UInt8.le_iff_toNat_le.mp isDigit.2
        have digits' (e : UInt8) (member : e ∈ digits) : Scanf.isDigit e :=
          digit e (List.mem_cons_of_mem d member)
        have tail := ih digits' (10 * n + (d.toNat - 48))
        calc digits.foldl (fun n d => 10 * n + (d.toNat - 48)) (10 * n + (d.toNat - 48))
            < (10 * n + (d.toNat - 48) + 1) * 10 ^ digits.length := tail
          _ ≤ ((n + 1) * 10) * 10 ^ digits.length := Nat.mul_le_mul_right _ (by omega)
          _ = (n + 1) * 10 ^ (digits.length + 1) := by rw [Nat.pow_succ', Nat.mul_assoc]
  have bound := grows 0
  rw [Nat.zero_add, Nat.one_mul] at bound
  exact bound

end Digits

section Scan

theorem dropWhile_blanks {blanks tail : List UInt8} {b : UInt8} (blank : ∀ c ∈ blanks, isSpace c)
    (other : isSpace b = false) : (blanks ++ b :: tail).dropWhile isSpace = b :: tail := by
  rw [List.dropWhile_append_of_pos blank, List.dropWhile_cons_of_neg (by simp [other])]

/-- A digit is neither white space nor a sign. -/
theorem digit_apart {d : UInt8} (digit : isDigit d) :
    isSpace d = false ∧ d ≠ minusSign ∧ d ≠ plusSign := by
  have low : 48 ≤ d.toNat := by
    simp only [isDigit, Bool.and_eq_true, decide_eq_true_eq] at digit
    exact UInt8.le_iff_toNat_le.mp digit.1
  refine ⟨?_, ?_, ?_⟩
  · have notBlank : d ≠ 32 := fun same => absurd (same ▸ low) (by decide)
    have notControl : ¬d ≤ 13 := by
      intro small
      have high : d.toNat ≤ 13 := UInt8.le_iff_toNat_le.mp small
      omega
    simp [isSpace, notBlank, notControl]
  · intro same
    exact absurd (same ▸ digit) (by decide)
  · intro same
    exact absurd (same ▸ digit) (by decide)

/-- The scanner finds exactly the numerals. -/
theorem scanInt_eq_some_iff {width : Nat} {bytes : List UInt8} {x : Int} :
    scanInt width bytes = some x ↔ Numeral width bytes x := by
  constructor
  · intro scanned
    have split := List.takeWhile_append_dropWhile (p := isSpace) (l := bytes)
    have blank (c : UInt8) (member : c ∈ bytes.takeWhile isSpace) : isSpace c :=
      List.mem_takeWhile_imp member
    rw [scanInt] at scanned
    cases rest : bytes.dropWhile isSpace with
    | nil =>
        rw [rest] at scanned
        cases scanned
    | cons b tail =>
        rw [rest] at scanned split
        simp only at scanned
        by_cases isMinus : b = minusSign
        · rw [if_pos isMinus, Option.map_eq_some_iff] at scanned
          obtain ⟨n, scanned, rfl⟩ := scanned
          obtain ⟨digits, after, rfl, nonempty, longest, rfl⟩ := scanDigits_eq_some_iff.mp scanned
          exact .minus _ digits after (isMinus ▸ split.symm) blank nonempty longest
        · rw [if_neg isMinus] at scanned
          by_cases isPlus : b = plusSign
          · rw [if_pos isPlus, Option.map_eq_some_iff] at scanned
            obtain ⟨n, scanned, rfl⟩ := scanned
            obtain ⟨digits, after, rfl, nonempty, longest, rfl⟩ := scanDigits_eq_some_iff.mp scanned
            exact .plus _ digits after (isPlus ▸ split.symm) blank nonempty longest
          · rw [if_neg isPlus, Option.map_eq_some_iff] at scanned
            obtain ⟨n, scanned, rfl⟩ := scanned
            obtain ⟨digits, after, same, nonempty, longest, rfl⟩ := scanDigits_eq_some_iff.mp scanned
            exact .unsigned _ digits after (same ▸ split.symm) blank nonempty longest
  · intro numeral
    rw [scanInt]
    cases numeral with
    | unsigned blanks digits rest split blank nonempty longest =>
        obtain ⟨d, ds, rfl⟩ := List.exists_cons_of_ne_nil nonempty
        obtain ⟨space, minus, plus⟩ := digit_apart (longest.digit d List.mem_cons_self)
        rw [split, List.cons_append, dropWhile_blanks blank space]
        simp only [if_neg minus, if_neg plus, ← List.cons_append]
        rw [scanDigits_eq_some_iff.mpr ⟨_, rest, rfl, nonempty, longest, rfl⟩]
        rfl
    | plus blanks digits rest split blank nonempty longest =>
        rw [split, dropWhile_blanks blank rfl]
        have scanned := scanDigits_eq_some_iff.mpr ⟨_, rest, rfl, nonempty, longest, rfl⟩
        have apart : plusSign ≠ minusSign := by decide
        simp only [if_neg apart, if_pos, scanned]
        rfl
    | minus blanks digits rest split blank nonempty longest =>
        rw [split, dropWhile_blanks blank rfl]
        have scanned := scanDigits_eq_some_iff.mpr ⟨_, rest, rfl, nonempty, longest, rfl⟩
        simp only [if_pos, scanned]
        rfl

/-- The magnitude of a number of at most `width` characters. -/
theorem Numeral.bounds {width : Nat} {bytes : List UInt8} {x : Int} (numeral : Numeral width bytes x) :
    -((10 : Int) ^ (width - 1)) < x ∧ x < 10 ^ width := by
  have below {room : Nat} {digits rest : List UInt8} (longest : Longest room digits rest) :
      (value digits : Int) < 10 ^ room := by
    have bound := (value_lt longest.digit).trans_le (Nat.pow_le_pow_right (by omega) longest.fits)
    exact_mod_cast bound
  have mono : (10 : Int) ^ (width - 1) ≤ 10 ^ width := by
    have bound : 10 ^ (width - 1) ≤ 10 ^ width := Nat.pow_le_pow_right (by omega) (Nat.sub_le _ _)
    exact_mod_cast bound
  have positive : (0 : Int) < 10 ^ (width - 1) := by
    have bound : 0 < 10 ^ (width - 1) := Nat.pow_pos (by omega)
    exact_mod_cast bound
  cases numeral with
  | unsigned blanks digits rest split blank nonempty longest =>
      have upper := below longest
      omega
  | plus blanks digits rest split blank nonempty longest =>
      have upper := below longest
      omega
  | minus blanks digits rest split blank nonempty longest =>
      have upper := below longest
      omega

end Scan

end Scanf
