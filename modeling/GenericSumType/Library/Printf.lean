/-
Module: GenericSumType.Library.Printf
Layer: Library
Purpose: The bytes that a call of `printf` writes: the conversions `%d` and `%s`, with a field width and the
  flag `-`.  A format is read into pieces first; the pieces are then filled with the arguments.  What stands
  on both sides of a byte can be read back when that byte does not come again soon, and lines can be read
  back from a text that they make up.
Imports: GenericSumType.Library.CString
Trusted boundary: human-reviewed semantics of `printf` (C11 7.21.6.1) for these conversions
Main exports: utf8, padTo, Piece, pieces, fill, render, renderAll, renderAll_of_map, utf8_injective,
  append_far_inj, Stopped, flatten_stopped_inj
Open obligations: none
-/
import GenericSumType.Library.CString

namespace Printf

open CString

/-- The bytes of a string constant. -/
def utf8 (s : String) : List UInt8 := s.toList.flatMap String.utf8EncodeChar

/-- `'%'` -/
def percent : UInt8 := 37

/-- `' '` -/
def space : UInt8 := 32

/-- `'\n'` -/
def newline : UInt8 := 10

/-- Blanks up to a field width, on the right when the flag `-` is given. -/
def padTo (left : Bool) (width : Nat) (s : List UInt8) : List UInt8 :=
  if left then s ++ List.replicate (width - s.length) space
  else List.replicate (width - s.length) space ++ s

inductive Piece where
  | text (bytes : List UInt8)
  /-- `%<width>d` -/
  | d (left : Bool) (width : Nat)
  /-- `%<width>s` -/
  | s (left : Bool) (width : Nat)
deriving DecidableEq, Repr

/-- One more byte of text before the pieces. -/
def consByte (b : UInt8) : List Piece → List Piece
  | .text bytes :: rest => .text (b :: bytes) :: rest
  | rest => .text [b] :: rest

/-- What the reader is in: text, or a conversion with its flag and width so far. -/
inductive Mode where
  | text
  | conversion (left : Bool) (width : Nat)

def isDigit (b : UInt8) : Bool := 48 ≤ b && b ≤ 57

/-- The pieces of a format, none when it has a conversion other than these. -/
def readPieces : Mode → List UInt8 → Option (List Piece)
  | .text, [] => some []
  | .text, b :: rest =>
      if b = percent then readPieces (.conversion false 0) rest
      else (readPieces .text rest).map (consByte b)
  | .conversion _ _, [] => none
  | .conversion left width, b :: rest =>
      if b = 45 ∧ width = 0 then readPieces (.conversion true 0) rest
      else if isDigit b ∧ (b ≠ 48 ∨ width ≠ 0) then
        readPieces (.conversion left (10 * width + (b.toNat - 48))) rest
      else if b = 100 then (readPieces .text rest).map (.d left width :: ·)
      else if b = 115 then (readPieces .text rest).map (.s left width :: ·)
      else none

def pieces (format : String) : Option (List Piece) := readPieces .text (utf8 format)

/-- The characters of a `%s` argument. -/
def characters : PrintfArg → Option (List UInt8)
  | .d _ => none
  | .s characters => some characters
  | .constant text => some (utf8 text)

/-- The bytes written for the pieces, none when an argument is missing or of another type. -/
def fill : List Piece → List PrintfArg → Option (List UInt8)
  | [], _ => some []
  | .text bytes :: rest, args => (fill rest args).map (bytes ++ ·)
  | .d left width :: rest, .d n :: args =>
      (fill rest args).map (padTo left width (utf8 (toString n)) ++ ·)
  | .s left width :: rest, arg :: args => do
      let shown ← characters arg
      let written ← fill rest args
      some (padTo left width shown ++ written)
  | _ :: _, _ => none

/-- What a call writes to the terminal. -/
def render (line : Line) : Option (List UInt8) := do
  let read ← pieces line.format
  fill read line.args

/-- What calls write, one after another. -/
def renderAll : List Line → Option (List UInt8)
  | [] => some []
  | line :: rest => do
      let shown ← render line
      let shown' ← renderAll rest
      some (shown ++ shown')

/-- Calls that all write something write it in order. -/
theorem renderAll_of_map {lines : List Line} {written : List (List UInt8)}
    (rendered : lines.map render = written.map some) : renderAll lines = some written.flatten := by
  induction lines generalizing written with
  | nil =>
      cases written with
      | nil => rfl
      | cons bytes written => cases rendered
  | cons line lines ih =>
      cases written with
      | nil => cases rendered
      | cons bytes written =>
          obtain ⟨first, rest⟩ := List.cons.inj rendered
          rw [renderAll, first, ih rest]
          rfl

section Text

/-- String constants are told apart by their bytes. -/
theorem utf8_injective : Function.Injective utf8 := by
  intro s t same
  have bytes : s.toByteArray = t.toByteArray := by
    rw [← String.utf8Encode_toList, ← String.utf8Encode_toList]
    exact congrArg List.toByteArray same
  exact String.toByteArray_inj.mp bytes

theorem length_padTo {left : Bool} {width : Nat} {s : List UInt8} :
    (padTo left width s).length = max width s.length := by
  cases left with
  | false =>
      simp [padTo]
      omega
  | true =>
      simp [padTo]
      omega

theorem notMem_padTo {b : UInt8} {left : Bool} {width : Nat} {s : List UInt8} (absent : b ∉ s)
    (visible : b ≠ space) : b ∉ padTo left width s := by
  have blanks : b ∉ List.replicate (width - s.length) space :=
    fun member => visible (List.eq_of_mem_replicate member)
  cases left with
  | false => exact List.not_mem_append blanks absent
  | true => exact List.not_mem_append absent blanks

end Text

section Separators

variable {α : Type*} {b : α} {bound : Nat}

/-- An element that does not come again soon is not found a little later. -/
theorem shift_eq_nil {shift rest rest' : List α} (near : shift.length ≤ bound) (far : b ∉ rest.take bound)
    (same : b :: rest = shift ++ b :: rest') : shift = [] := by
  cases shift with
  | nil => rfl
  | cons c shift =>
      have later : rest = shift ++ b :: rest' := (List.cons.inj same).2
      have found : rest[shift.length]? = some b := by
        rw [later, List.getElem?_append_right (Nat.le_refl _), Nat.sub_self, List.getElem?_cons_zero]
      have soon : (rest.take bound)[shift.length]? = some b := by
        rw [List.getElem?_take_of_lt near, found]
      exact absurd (List.mem_of_getElem? soon) far

/-- Texts of about one length are told apart before an element that does not come again soon. -/
theorem append_far_inj {front front' rest rest' : List α} (near : front.length ≤ front'.length + bound)
    (near' : front'.length ≤ front.length + bound) (far : b ∉ rest.take bound) (far' : b ∉ rest'.take bound)
    (same : front ++ b :: rest = front' ++ b :: rest') : front = front' ∧ rest = rest' := by
  rcases List.append_eq_append_iff.mp same with ⟨shift, rfl, shifted⟩ | ⟨shift, rfl, shifted⟩
  · rw [List.length_append] at near'
    obtain rfl := shift_eq_nil (Nat.le_of_add_le_add_left near') far shifted
    exact ⟨(List.append_nil front).symm, (List.cons.inj shifted).2⟩
  · rw [List.length_append] at near
    obtain rfl := shift_eq_nil (Nat.le_of_add_le_add_left near) far' shifted
    exact ⟨List.append_nil front', (List.cons.inj shifted).2.symm⟩

end Separators

section Lines

variable {α : Type*} {stop : α}

/-- The element comes at the end, and nowhere else. -/
def Stopped (stop : α) (line : List α) : Prop := ∃ body, stop ∉ body ∧ line = body ++ [stop]

theorem Stopped.append {front line : List α} (absent : stop ∉ front) (stopped : Stopped stop line) :
    Stopped stop (front ++ line) := by
  obtain ⟨body, clean, rfl⟩ := stopped
  exact ⟨front ++ body, List.not_mem_append absent clean, (List.append_assoc _ _ _).symm⟩

/-- Texts are told apart up to the first byte at which they stop. -/
theorem append_stop_inj {P : α → Prop} {body body' rest rest' : List α} {b b' : α}
    (clean : ∀ a ∈ body, ¬P a) (clean' : ∀ a ∈ body', ¬P a) (stop : P b) (stop' : P b')
    (same : body ++ b :: rest = body' ++ b' :: rest') : body = body' ∧ b = b' ∧ rest = rest' := by
  rcases List.append_eq_append_iff.mp same with ⟨front, rfl, moved⟩ | ⟨front, rfl, moved⟩
  · cases front with
    | nil => exact ⟨(List.append_nil body).symm, List.cons.inj moved⟩
    | cons a front =>
        obtain rfl := (List.cons.inj moved).1
        exact absurd stop (clean' _ (List.mem_append_right _ List.mem_cons_self))
  · cases front with
    | nil =>
        obtain ⟨here, later⟩ := List.cons.inj moved
        exact ⟨List.append_nil body', here.symm, later.symm⟩
    | cons a front =>
        obtain rfl := (List.cons.inj moved).1
        exact absurd stop' (clean _ (List.mem_append_right _ List.mem_cons_self))

/-- A text is cut into lines in one way. -/
theorem flatten_stopped_inj {lines lines' : List (List α)} (stopped : ∀ line ∈ lines, Stopped stop line)
    (stopped' : ∀ line ∈ lines', Stopped stop line) (same : lines.flatten = lines'.flatten) :
    lines = lines' := by
  induction lines generalizing lines' with
  | nil =>
      cases lines' with
      | nil => rfl
      | cons line lines' =>
          obtain ⟨body, _, rfl⟩ := stopped' line List.mem_cons_self
          simp at same
  | cons line lines ih =>
      obtain ⟨body, clean, rfl⟩ := stopped line List.mem_cons_self
      cases lines' with
      | nil => simp at same
      | cons line' lines' =>
          obtain ⟨body', clean', rfl⟩ := stopped' line' List.mem_cons_self
          rw [List.flatten_cons, List.flatten_cons, List.append_assoc, List.append_assoc] at same
          obtain ⟨rfl, -, rest⟩ := append_stop_inj (P := (· = stop)) (List.forall_mem_ne'.mpr clean)
            (List.forall_mem_ne'.mpr clean') rfl rfl same
          rw [ih (fun line member => stopped line (List.mem_cons_of_mem _ member))
            (fun line member => stopped' line (List.mem_cons_of_mem _ member)) rest]

end Lines

end Printf
