/-
Module: GenericSumType.Library.FormatReading
Layer: Library
Purpose: What can be read back from the bytes that `printf` writes.  A format with its arguments is read
  back when no number is followed by a digit and a string by fixed text only; two formats are told apart
  when their texts differ at the first place where the formats do.  Both are decided on the formats.  A
  program whose formats pass, and end each line, is read back call by call from its whole output.
Imports: GenericSumType.Library.Printf, Mathlib
Trusted boundary: none
Main exports: decimal_injective, Signature, readable, apart, ReadableTable, LineTable, Printable,
  render_told, renderAll_told, renderAll_iff
Open obligations: none
-/
import GenericSumType.Library.Printf
import Mathlib

namespace Printf

open CString

section Numbers

/-- The bytes of numbers in decimal. -/
def isNumeral (b : UInt8) : Bool := isDigit b || b == 45

def decimal (n : Int) : List UInt8 := utf8 (toString n)

/-- A number is told by its digits. -/
theorem decimal_injective : Function.Injective decimal := by
  intro m n same
  exact Int.repr_injective (utf8_injective same)

theorem utf8_append (s t : String) : utf8 (s ++ t) = utf8 s ++ utf8 t := by
  rw [utf8, String.toList_append, List.flatMap_append]
  rfl

theorem isNumeral_of_digit {c : Char} (digit : c.isDigit) {b : UInt8}
    (member : b ∈ String.utf8EncodeChar c) : isNumeral b := by
  have bounds : 48 ≤ c.toNat ∧ c.toNat ≤ 57 := by
    simpa [Char.isDigit, UInt32.le_iff_toNat_le] using digit
  have ascii : c.val.toNat ≤ 127 := Nat.le_trans bounds.2 (by decide)
  rw [String.utf8EncodeChar, if_pos ascii, List.mem_singleton] at member
  subst member
  have small : c.toNat % 256 = c.toNat := Nat.mod_eq_of_lt (by omega)
  simp [isNumeral, isDigit, UInt8.le_iff_toNat_le, small, bounds]

/-- A natural number is written with the bytes of numbers only. -/
theorem isNumeral_of_mem_nat {n : Nat} {b : UInt8} (member : b ∈ utf8 n.repr) : isNumeral b := by
  rw [utf8, Nat.repr, String.toList_ofList] at member
  obtain ⟨c, digit, inside⟩ := List.mem_flatMap.mp member
  exact isNumeral_of_digit (Nat.isDigit_of_mem_toDigits (by decide) (by decide) digit) inside

/-- A negative number has a sign before its digits. -/
theorem decimal_negSucc (n : Nat) : decimal (.negSucc n) = 45 :: utf8 (n + 1).repr := by
  have minus : utf8 "-" = [45] := by decide +kernel
  have split : decimal (.negSucc n) = utf8 "-" ++ utf8 (n + 1).repr := utf8_append "-" _
  rw [split, minus, List.singleton_append]

/-- So is a negative one, with its sign. -/
theorem isNumeral_of_mem_decimal {n : Int} {b : UInt8} (member : b ∈ decimal n) : isNumeral b := by
  cases n with
  | ofNat n => exact isNumeral_of_mem_nat member
  | negSucc n =>
      rw [decimal_negSucc, List.mem_cons] at member
      rcases member with rfl | digits
      · rfl
      · exact isNumeral_of_mem_nat digits

theorem length_decimal_pos {n : Int} : 0 < (decimal n).length := by
  cases n with
  | ofNat n =>
      have some_digit : n.repr ≠ "" := Nat.repr_ne_empty
      apply List.length_pos_iff.mpr
      intro empty
      exact some_digit (utf8_injective (empty.trans (by decide +kernel)))
  | negSucc n =>
      rw [decimal_negSucc]
      exact Nat.zero_lt_succ _

/-- The bytes do not go on with a number. -/
def EndsNumber : List UInt8 → Prop
  | [] => True
  | b :: _ => isNumeral b = false

/-- The digits are what is read off before the first byte that does not go on with a number. -/
theorem takeWhile_decimal {n : Int} {rest : List UInt8} (ends : EndsNumber rest) :
    (decimal n ++ rest).takeWhile isNumeral = decimal n := by
  rw [List.takeWhile_append_of_pos fun b member => isNumeral_of_mem_decimal member]
  cases rest with
  | nil => rw [List.takeWhile_nil, List.append_nil]
  | cons b rest =>
      have stops : isNumeral b = false := ends
      rw [List.takeWhile_cons, stops, if_neg Bool.false_ne_true, List.append_nil]

/-- Two numbers, each followed by such a byte, are told from one text. -/
theorem decimal_append_inj {m n : Int} {rest rest' : List UInt8} (ends : EndsNumber rest)
    (ends' : EndsNumber rest') (same : decimal m ++ rest = decimal n ++ rest') : m = n ∧ rest = rest' := by
  have digits : decimal m = decimal n := by
    rw [← takeWhile_decimal ends, same, takeWhile_decimal ends']
  obtain rfl := decimal_injective digits
  exact ⟨rfl, List.append_cancel_left same⟩

end Numbers

section Formats

/-- The pieces begin with text that does not go on with a number. -/
def endsNumber : List Piece → Bool
  | [] => true
  | .text (b :: _) :: _ => !isNumeral b
  | _ => false

def fixed : List Piece → Bool
  | [] => true
  | .text _ :: rest => fixed rest
  | _ => false

/-- No field width; no number is followed by a digit, and after a string there is text only. -/
def readable : List Piece → Bool
  | [] => true
  | .text _ :: rest => readable rest
  | .d _ width :: rest => width == 0 && endsNumber rest && readable rest
  | .s _ width :: rest => width == 0 && fixed rest

/-- The texts of two formats differ at the first place where the formats do. -/
def apart : List Piece → List Piece → Bool
  | .text bytes :: rest, .text bytes' :: rest' =>
      if bytes = bytes' then apart rest rest' else !bytes.isPrefixOf bytes' && !bytes'.isPrefixOf bytes
  | .d _ width :: rest, .d _ width' :: rest' =>
      width == 0 && width' == 0 && endsNumber rest && endsNumber rest' && apart rest rest'
  | _, _ => false

/-- The types of arguments. -/
inductive ArgKind where
  | number
  | array
  | constant
deriving DecidableEq, Repr

def kind : PrintfArg → ArgKind
  | .d _ => .number
  | .s _ => .array
  | .constant _ => .constant

def shown : PrintfArg → List UInt8
  | .d n => decimal n
  | .s characters => characters
  | .constant text => utf8 text

/-- One argument of the right type for each conversion. -/
def fits : List Piece → List ArgKind → Bool
  | [], [] => true
  | .text _ :: rest, kinds => fits rest kinds
  | .d _ _ :: rest, .number :: kinds => fits rest kinds
  | .s _ _ :: rest, .array :: kinds | .s _ _ :: rest, .constant :: kinds => fits rest kinds
  | _, _ => false

/-- A format with more text at its end. -/
def appendText (bytes : List UInt8) : List Piece → List Piece
  | [] => [.text bytes]
  | [.text bytes'] => [.text (bytes' ++ bytes)]
  | p :: rest => p :: appendText bytes rest

/-- All text of a format. -/
def texts : List Piece → List UInt8
  | [] => []
  | .text bytes :: rest => bytes ++ texts rest
  | .d _ _ :: rest | .s _ _ :: rest => texts rest

/-- The number of bytes that are written at least; a number has a digit. -/
def least : List Piece → Nat
  | [] => 0
  | .text bytes :: rest => bytes.length + least rest
  | .d _ width :: rest => max width 1 + least rest
  | .s _ width :: rest => width + least rest

/-- Text ends with the only line end of the format. -/
def endsLine : List Piece → Bool
  | [] => false
  | [.text bytes] => bytes.getLast? == some newline && !bytes.dropLast.contains newline
  | .text bytes :: rest => !bytes.contains newline && endsLine rest
  | .d _ _ :: rest | .s _ _ :: rest => endsLine rest

end Formats

section Fill

variable {ps qs : List Piece} {args args' : List PrintfArg} {bytes : List UInt8}

theorem padTo_zero {left : Bool} {s : List UInt8} : padTo left 0 s = s := by
  cases left with
  | false => simp [padTo]
  | true => simp [padTo]

/-- Arguments that fit a number conversion begin with a number. -/
theorem fits_number {left : Bool} {width : Nat} (fit : fits (.d left width :: ps) (args.map kind)) :
    ∃ n rest, args = .d n :: rest ∧ fits ps (rest.map kind) := by
  match args, fit with
  | .d n :: rest, fit => exact ⟨n, rest, rfl, fit⟩

/-- Arguments that fit a string conversion begin with an argument that has characters. -/
theorem fits_string {left : Bool} {width : Nat} (fit : fits (.s left width :: ps) (args.map kind)) :
    ∃ arg rest, args = arg :: rest ∧ characters arg = some (shown arg) ∧ fits ps (rest.map kind) := by
  match args, fit with
  | .s characters :: rest, fit => exact ⟨.s characters, rest, rfl, rfl, fit⟩
  | .constant text :: rest, fit => exact ⟨.constant text, rest, rfl, rfl, fit⟩

/-- Arguments that fit are written. -/
theorem fill_of_fits (fit : fits ps (args.map kind)) : ∃ bytes, fill ps args = some bytes := by
  induction ps generalizing args with
  | nil => exact ⟨[], rfl⟩
  | cons p ps ih =>
      cases p with
      | text t =>
          obtain ⟨bytes, filled⟩ := ih fit
          exact ⟨t ++ bytes, by rw [fill, filled, Option.map_some]⟩
      | d left width =>
          obtain ⟨n, rest, rfl, fit⟩ := fits_number fit
          obtain ⟨bytes, filled⟩ := ih fit
          exact ⟨_, by rw [fill, filled, Option.map_some]⟩
      | s left width =>
          obtain ⟨arg, rest, rfl, chars, fit⟩ := fits_string fit
          obtain ⟨bytes, filled⟩ := ih fit
          exact ⟨_, by rw [fill, chars, filled]; rfl⟩

/-- What a format writes does not go on with a number if the format does not. -/
theorem fill_endsNumber (ends : endsNumber ps) (filled : fill ps args = some bytes) : EndsNumber bytes := by
  match ps, ends with
  | [], _ =>
      obtain rfl := Option.some.inj filled
      trivial
  | .text (b :: t) :: ps, ends =>
      rw [fill] at filled
      obtain ⟨rest, _, rfl⟩ := Option.map_eq_some_iff.mp filled
      have stops : isNumeral b = false := by simpa [endsNumber] using ends
      exact stops

/-- A format that is all text takes no arguments. -/
theorem fits_fixed (fix : fixed ps) (fit : fits ps (args.map kind)) : args = [] := by
  induction ps with
  | nil =>
      cases args with
      | nil => rfl
      | cons arg args => cases fit
  | cons p ps ih =>
      cases p with
      | text t => exact ih fix fit
      | d left width => cases fix
      | s left width => cases fix

/-- What an argument of a known type looks like tells it. -/
theorem shown_inj {arg arg' : PrintfArg} (kinds : kind arg = kind arg') (same : shown arg = shown arg') :
    arg = arg' := by
  cases arg with
  | d n =>
      cases arg' with
      | d n' => rw [decimal_injective same]
      | s characters => cases kinds
      | constant text => cases kinds
  | s characters =>
      cases arg' with
      | d n' => cases kinds
      | s characters' => exact congrArg PrintfArg.s same
      | constant text => cases kinds
  | constant text =>
      cases arg' with
      | d n' => cases kinds
      | s characters' => cases kinds
      | constant text' => rw [utf8_injective same]

/-- The arguments of one format are read back. -/
theorem fill_told (read : readable ps) (fit : fits ps (args.map kind))
    (fit' : fits ps (args'.map kind)) (kinds : args.map kind = args'.map kind)
    (same : fill ps args = fill ps args') : args = args' := by
  induction ps generalizing args args' with
  | nil => rw [fits_fixed rfl fit, fits_fixed rfl fit']
  | cons p ps ih =>
      cases p with
      | text t =>
          have cancel : Function.Injective (Option.map (t ++ ·)) :=
            Option.map_injective (List.append_right_injective t)
          exact ih read fit fit' kinds (cancel same)
      | d left width =>
          simp only [readable, Bool.and_eq_true, beq_iff_eq] at read
          obtain ⟨⟨rfl, ends⟩, rest_read⟩ := read
          obtain ⟨n, rest, rfl, fits_rest⟩ := fits_number fit
          obtain ⟨n', rest', rfl, fits_rest'⟩ := fits_number fit'
          obtain ⟨bytes, filled⟩ := fill_of_fits fits_rest
          obtain ⟨bytes', filled'⟩ := fill_of_fits fits_rest'
          rw [fill, fill, filled, filled', Option.map_some, Option.map_some, Option.some.injEq, padTo_zero,
            padTo_zero] at same
          obtain ⟨rfl, rfl⟩ :=
            decimal_append_inj (fill_endsNumber ends filled) (fill_endsNumber ends filled') same
          have kinds_rest : rest.map kind = rest'.map kind := (List.cons.inj kinds).2
          rw [ih rest_read fits_rest fits_rest' kinds_rest (filled.trans filled'.symm)]
      | s left width =>
          simp only [readable, Bool.and_eq_true, beq_iff_eq] at read
          obtain ⟨rfl, fix⟩ := read
          obtain ⟨arg, rest, rfl, chars, fits_rest⟩ := fits_string fit
          obtain ⟨arg', rest', rfl, chars', fits_rest'⟩ := fits_string fit'
          obtain rfl := fits_fixed fix fits_rest
          obtain rfl := fits_fixed fix fits_rest'
          obtain ⟨bytes, filled⟩ := fill_of_fits fits_rest
          rw [fill, fill, chars, chars', filled] at same
          have texts : padTo left 0 (shown arg) ++ bytes = padTo left 0 (shown arg') ++ bytes :=
            Option.some.inj same
          rw [padTo_zero, padTo_zero] at texts
          have one : kind arg = kind arg' := (List.cons.inj kinds).1
          rw [shown_inj one (List.append_cancel_right texts)]

/-- A format that begins with a number conversion writes a number and then what follows. -/
theorem fill_number {left : Bool} {width : Nat} (filled : fill (.d left width :: ps) args = some bytes) :
    ∃ n rest written, args = .d n :: rest ∧ fill ps rest = some written ∧
      bytes = padTo left width (decimal n) ++ written := by
  match args, filled with
  | .d n :: rest, filled =>
      rw [fill] at filled
      obtain ⟨written, here, rfl⟩ := Option.map_eq_some_iff.mp filled
      exact ⟨n, rest, written, rfl, here, rfl⟩

theorem fill_string {left : Bool} {width : Nat} (filled : fill (.s left width :: ps) args = some bytes) :
    ∃ arg rest written, args = arg :: rest ∧ characters arg = some (shown arg) ∧ fill ps rest = some written ∧
      bytes = padTo left width (shown arg) ++ written := by
  match args, filled with
  | arg :: rest, filled =>
      rw [fill, Option.bind_eq_bind, Option.bind_eq_some_iff] at filled
      obtain ⟨chars, characters_eq, filled⟩ := filled
      obtain ⟨written, here, same⟩ := Option.bind_eq_some_iff.mp filled
      obtain rfl := Option.some.inj same
      have shown_eq : chars = shown arg := by
        cases arg with
        | d n => cases characters_eq
        | s characters => exact (Option.some.inj characters_eq).symm
        | constant text => exact (Option.some.inj characters_eq).symm
      obtain rfl := shown_eq
      exact ⟨arg, rest, written, rfl, characters_eq, here, rfl⟩

/-- Formats that are apart never write the same. -/
theorem fill_apart (differ : apart ps qs) (filled : fill ps args = some bytes)
    (filled' : fill qs args' = some bytes) : False := by
  fun_induction apart ps qs generalizing args args' bytes with
  | case1 ps t qs ih =>
      rw [fill] at filled filled'
      obtain ⟨rest, here, rfl⟩ := Option.map_eq_some_iff.mp filled
      obtain ⟨rest', here', same⟩ := Option.map_eq_some_iff.mp filled'
      obtain rfl := List.append_cancel_left same
      exact ih differ here here'
  | case2 t ps u qs unequal =>
      rw [fill] at filled filled'
      obtain ⟨rest, here, rfl⟩ := Option.map_eq_some_iff.mp filled
      obtain ⟨rest', here', same⟩ := Option.map_eq_some_iff.mp filled'
      simp only [Bool.and_eq_true, Bool.not_eq_true', ← Bool.not_eq_true,
        List.isPrefixOf_iff_prefix] at differ
      -- of two beginnings of one text, one is a beginning of the other
      rcases List.prefix_or_prefix_of_prefix (List.prefix_append t rest)
        (same ▸ List.prefix_append u rest') with before | before
      · exact differ.1 before
      · exact differ.2 before
  | case3 _ w ps _ w' qs ih =>
      simp only [Bool.and_eq_true, beq_iff_eq] at differ
      obtain ⟨⟨⟨⟨rfl, rfl⟩, ends⟩, ends'⟩, rest_differ⟩ := differ
      obtain ⟨n, rest, written, -, here, rfl⟩ := fill_number filled
      obtain ⟨n', rest', written', -, here', same⟩ := fill_number filled'
      rw [padTo_zero, padTo_zero] at same
      obtain ⟨_, rfl⟩ := decimal_append_inj (fill_endsNumber ends here) (fill_endsNumber ends' here') same
      exact ih rest_differ here here'
  | case4 => cases differ

theorem fits_appendText {more : List UInt8} {kinds : List ArgKind} :
    fits (appendText more ps) kinds = fits ps kinds := by
  fun_induction appendText more ps generalizing kinds with
  | case1 => rfl
  | case2 bytes => rfl
  | case3 p rest _ ih =>
      cases p with
      | text t => exact ih
      | d left width =>
          match kinds with
          | .number :: kinds => exact ih
          | [] | .array :: kinds | .constant :: kinds => rfl
      | s left width =>
          match kinds with
          | .array :: kinds | .constant :: kinds => exact ih
          | [] | .number :: kinds => rfl

/-- More text at the end is written at the end. -/
theorem fill_appendText {more : List UInt8} (filled : fill ps args = some bytes) :
    fill (appendText more ps) args = some (bytes ++ more) := by
  fun_induction appendText more ps generalizing args bytes with
  | case1 =>
      obtain rfl := Option.some.inj filled
      rw [fill, fill, Option.map_some, List.append_nil, List.nil_append]
  | case2 t =>
      rw [fill, fill, Option.map_some, List.append_nil] at filled
      obtain rfl := Option.some.inj filled
      rw [fill, fill, Option.map_some, List.append_nil]
  | case3 p rest _ ih =>
      cases p with
      | text t =>
          rw [fill] at filled
          obtain ⟨written, here, rfl⟩ := Option.map_eq_some_iff.mp filled
          rw [fill, ih here, Option.map_some, List.append_assoc]
      | d left width =>
          obtain ⟨n, args, written, rfl, here, rfl⟩ := fill_number filled
          rw [fill, ih here, Option.map_some, decimal, List.append_assoc]
      | s left width =>
          obtain ⟨arg, args, written, rfl, chars, here, rfl⟩ := fill_string filled
          rw [fill, chars, ih here, List.append_assoc]
          rfl

/-- One format behind the other writes what both write. -/
theorem fill_append {back : List UInt8} (fit : fits ps (args.map kind)) (filled : fill ps args = some bytes)
    (filled' : fill qs args' = some back) : fill (ps ++ qs) (args ++ args') = some (bytes ++ back) := by
  induction ps generalizing args bytes with
  | nil =>
      obtain rfl := fits_fixed rfl fit
      obtain rfl := Option.some.inj filled
      exact filled'
  | cons p ps ih =>
      cases p with
      | text t =>
          rw [fill] at filled
          obtain ⟨written, here, rfl⟩ := Option.map_eq_some_iff.mp filled
          rw [List.cons_append, fill, ih fit here, Option.map_some, List.append_assoc]
      | d left width =>
          obtain ⟨n, args, written, rfl, here, rfl⟩ := fill_number filled
          rw [List.cons_append, List.cons_append, fill, ih fit here, Option.map_some, decimal,
            List.append_assoc]
      | s left width =>
          obtain ⟨arg, args, written, rfl, chars, here, rfl⟩ := fill_string filled
          obtain ⟨_, _, same, _, fits_rest⟩ := fits_string fit
          obtain ⟨rfl, rfl⟩ := List.cons.inj same
          rw [List.cons_append, List.cons_append, fill, chars, ih fits_rest here, List.append_assoc]
          rfl

/-- A visible byte that is neither in the text nor in the arguments is not written. -/
theorem notMem_fill {b : UInt8} (visible : b ≠ space) (absent : b ∉ texts ps)
    (clean : ∀ arg ∈ args, b ∉ shown arg) (filled : fill ps args = some bytes) : b ∉ bytes := by
  induction ps generalizing args bytes with
  | nil =>
      obtain rfl := Option.some.inj filled
      exact List.not_mem_nil
  | cons p ps ih =>
      cases p with
      | text t =>
          rw [texts, List.mem_append, not_or] at absent
          rw [fill] at filled
          obtain ⟨written, here, rfl⟩ := Option.map_eq_some_iff.mp filled
          exact List.not_mem_append absent.1 (ih absent.2 clean here)
      | d left width =>
          obtain ⟨n, args, written, rfl, here, rfl⟩ := fill_number filled
          obtain ⟨first, others⟩ := List.forall_mem_cons.mp clean
          exact List.not_mem_append (notMem_padTo first visible) (ih absent others here)
      | s left width =>
          obtain ⟨arg, args, written, rfl, -, here, rfl⟩ := fill_string filled
          obtain ⟨first, others⟩ := List.forall_mem_cons.mp clean
          exact List.not_mem_append (notMem_padTo first visible) (ih absent others here)

theorem least_le_length (filled : fill ps args = some bytes) : least ps ≤ bytes.length := by
  induction ps generalizing args bytes with
  | nil => exact Nat.zero_le _
  | cons p ps ih =>
      cases p with
      | text t =>
          rw [fill] at filled
          obtain ⟨written, here, rfl⟩ := Option.map_eq_some_iff.mp filled
          rw [least, List.length_append]
          exact Nat.add_le_add_left (ih here) _
      | d left width =>
          obtain ⟨n, args, written, rfl, here, rfl⟩ := fill_number filled
          rw [least, List.length_append, length_padTo]
          exact Nat.add_le_add (max_le_max_left width length_decimal_pos) (ih here)
      | s left width =>
          obtain ⟨arg, args, written, rfl, -, here, rfl⟩ := fill_string filled
          rw [least, List.length_append, length_padTo]
          exact Nat.add_le_add (le_max_left _ _) (ih here)

theorem newline_notMem_decimal {n : Int} : newline ∉ decimal n := by
  intro member
  cases isNumeral_of_mem_decimal member

/-- Arguments without line ends are written on one line. -/
theorem fill_stopped (ends : endsLine ps) (clean : ∀ arg ∈ args, newline ∉ shown arg)
    (filled : fill ps args = some bytes) : Stopped newline bytes := by
  fun_induction endsLine ps generalizing args bytes with
  | case1 => cases ends
  | case2 t =>
      obtain rfl : bytes = t := by
        rw [fill, fill, Option.map_some, List.append_nil] at filled
        exact (Option.some.inj filled).symm
      simp only [Bool.and_eq_true, beq_iff_eq, Bool.not_eq_true', List.contains_eq_mem,
        decide_eq_false_iff_not] at ends
      exact ⟨bytes.dropLast, ends.2, (List.dropLast_append_getLast? newline ends.1).symm⟩
  | case3 t rest _ ih =>
      simp only [Bool.and_eq_true, Bool.not_eq_true', List.contains_eq_mem, decide_eq_false_iff_not] at ends
      rw [fill] at filled
      obtain ⟨written, here, rfl⟩ := Option.map_eq_some_iff.mp filled
      exact .append ends.1 (ih ends.2 clean here)
  | case4 left width rest ih =>
      obtain ⟨n, args, written, rfl, here, rfl⟩ := fill_number filled
      have visible : newline ∉ padTo left width (decimal n) := notMem_padTo newline_notMem_decimal (by decide)
      exact .append visible (ih ends (List.forall_mem_cons.mp clean).2 here)
  | case5 left width rest ih =>
      obtain ⟨arg, args, written, rfl, -, here, rfl⟩ := fill_string filled
      obtain ⟨first, others⟩ := List.forall_mem_cons.mp clean
      exact .append (notMem_padTo first (by decide)) (ih ends others here)

end Fill

section Tables

/-- A format and the types of its arguments. -/
abbrev Signature : Type := String × List ArgKind

def signature (line : Line) : Signature := (line.format, line.args.map kind)

/-- The arguments fit and can be read back. -/
def signatureReadable (s : Signature) : Bool := (pieces s.1).any fun ps => fits ps s.2 && readable ps

def signaturesApart (s t : Signature) : Bool :=
  match pieces s.1, pieces t.1 with
  | some ps, some qs => apart ps qs
  | _, _ => false

/-- The formats of a program whose calls can be read back from what each writes. -/
structure ReadableTable (table : List Signature) : Prop where
  readable : ∀ s ∈ table, signatureReadable s
  apart : ∀ s ∈ table, ∀ t ∈ table, s = t ∨ signaturesApart s t

/-- Each call writes one line, too. -/
structure LineTable (table : List Signature) : Prop extends ReadableTable table where
  endsLine : ∀ s ∈ table, (pieces s.1).any endsLine

/-- A call that the table allows, with no line end in its arguments. -/
structure Printable (table : List Signature) (line : Line) : Prop where
  signature : signature line ∈ table
  oneLine : ∀ arg ∈ line.args, newline ∉ shown arg

variable {table : List Signature} {line line' : Line} {lines lines' : List Line}

/-- The format of an allowed call is made of known conversions, which its arguments fit. -/
theorem ReadableTable.parse (known : ReadableTable table) (member : signature line ∈ table) :
    ∃ ps, pieces line.format = some ps ∧ fits ps (line.args.map kind) ∧ Printf.readable ps := by
  obtain ⟨ps, parsed, passes⟩ := (Option.any_eq_true _ _).mp (known.readable _ member)
  simp only [Bool.and_eq_true] at passes
  exact ⟨ps, parsed, passes⟩

theorem render_of_pieces {ps : List Piece} (parsed : pieces line.format = some ps) :
    render line = fill ps line.args := by
  rw [render, parsed]
  rfl

/-- A call is read back from the bytes that it writes. -/
theorem render_told (known : ReadableTable table) (member : signature line ∈ table)
    (member' : signature line' ∈ table) (same : render line = render line') : line = line' := by
  obtain ⟨ps, parsed, fit, read⟩ := known.parse member
  obtain ⟨qs, parsed', fit', _⟩ := known.parse member'
  obtain ⟨bytes, filled⟩ := fill_of_fits fit
  rw [render_of_pieces parsed, render_of_pieces parsed'] at same
  rcases known.apart _ member _ member' with equal | differ
  · have formats : line.format = line'.format := congrArg Prod.fst equal
    obtain rfl : ps = qs := by
      rw [formats] at parsed
      exact Option.some.inj (parsed.symm.trans parsed')
    have args := fill_told read fit fit' (congrArg Prod.snd equal) same
    cases line
    cases line'
    exact congrArg₂ Line.mk formats args
  · have apart : apart ps qs := by
      rw [signaturesApart, signature, signature, parsed, parsed'] at differ
      exact differ
    exact (fill_apart apart filled (same.symm.trans filled)).elim

/-- An allowed call writes one line. -/
theorem render_printable (known : LineTable table) (printable : Printable table line) :
    ∃ bytes, render line = some bytes ∧ Stopped newline bytes := by
  obtain ⟨ps, parsed, fit, _⟩ := known.parse printable.signature
  obtain ⟨bytes, filled⟩ := fill_of_fits fit
  have ends : endsLine ps := by
    have every := known.endsLine _ printable.signature
    rw [signature, parsed] at every
    exact every
  exact ⟨bytes, (render_of_pieces parsed).trans filled, fill_stopped ends printable.oneLine filled⟩

/-- Allowed calls write one line each. -/
theorem renderAll_printable (known : LineTable table) (printable : ∀ line ∈ lines, Printable table line) :
    ∃ written : List (List UInt8), lines.map render = written.map some ∧
      ∀ bytes ∈ written, Stopped newline bytes := by
  induction lines with
  | nil => exact ⟨[], rfl, List.forall_mem_nil _⟩
  | cons line lines ih =>
      obtain ⟨first, others⟩ := List.forall_mem_cons.mp printable
      obtain ⟨bytes, rendered, stopped⟩ := render_printable known first
      obtain ⟨written, rest, stopped_rest⟩ := ih others
      refine ⟨bytes :: written, ?_, List.forall_mem_cons.mpr ⟨stopped, stopped_rest⟩⟩
      rw [List.map_cons, List.map_cons, rendered, rest]

/-- Calls are read back from what each of them writes. -/
theorem map_render_told (known : LineTable table) (printable : ∀ line ∈ lines, Printable table line)
    (printable' : ∀ line ∈ lines', Printable table line) (same : lines.map render = lines'.map render) :
    lines = lines' := by
  induction lines generalizing lines' with
  | nil => exact (List.map_eq_nil_iff.mp same.symm).symm
  | cons line lines ih =>
      cases lines' with
      | nil => cases same
      | cons line' lines' =>
          obtain ⟨first, others⟩ := List.forall_mem_cons.mp printable
          obtain ⟨first', others'⟩ := List.forall_mem_cons.mp printable'
          obtain ⟨here, rest⟩ := List.cons.inj same
          rw [render_told known.toReadableTable first.signature first'.signature here, ih others others' rest]

/-- Calls are read back from the bytes that they write together. -/
theorem renderAll_told (known : LineTable table) (printable : ∀ line ∈ lines, Printable table line)
    (printable' : ∀ line ∈ lines', Printable table line) (same : renderAll lines = renderAll lines') :
    lines = lines' := by
  obtain ⟨written, rendered, stopped⟩ := renderAll_printable known printable
  obtain ⟨written', rendered', stopped'⟩ := renderAll_printable known printable'
  rw [renderAll_of_map rendered, renderAll_of_map rendered', Option.some.injEq] at same
  obtain rfl := flatten_stopped_inj stopped stopped' same
  exact map_render_told known printable printable' (rendered.trans rendered'.symm)

/-- Allowed calls write something, and calls are the same when what they write is. -/
theorem renderAll_iff (known : LineTable table) (printable : ∀ line ∈ lines, Printable table line)
    (printable' : ∀ line ∈ lines', Printable table line) :
    ∃ bytes bytes', renderAll lines = some bytes ∧ renderAll lines' = some bytes' ∧
      (bytes = bytes' ↔ lines = lines') := by
  obtain ⟨written, rendered, _⟩ := renderAll_printable known printable
  obtain ⟨written', rendered', _⟩ := renderAll_printable known printable'
  have all := renderAll_of_map rendered
  have all' := renderAll_of_map rendered'
  refine ⟨_, _, all, all', ?_, ?_⟩
  · intro same
    exact renderAll_told known printable printable' (all.trans ((congrArg some same).trans all'.symm))
  · rintro rfl
    exact Option.some.inj (all.symm.trans all')

end Tables

end Printf
