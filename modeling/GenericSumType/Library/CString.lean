/-
Module: GenericSumType.Library.CString
Layer: Library
Purpose: Character arrays and the string functions of C over the bytes they reach.  A pointer into an
  object is the list of bytes from there to the end of the object; an access beyond that end is an error.
  Each function has one lemma that gives its result on terminated strings.
Imports: Mathlib.Data.List.TakeWhile
Trusted boundary: human-reviewed semantics of `<string.h>` (C11 7.24) and `printf`
Main exports: CharArray, text, readString, strlen_eq, strchr_eq, strncmp_literal, strncpy_then_terminate,
  memcpy_clamped, advance_text, arrayIndex, Line
Open obligations: none
-/
import Mathlib.Data.List.TakeWhile

namespace CString

/-- An access outside of the object that a pointer points into. -/
inductive OutOfBounds where
  | read
  | write
  /-- an index that is not one of the array -/
  | index
deriving DecidableEq, Repr

/-- The element that `a[i]` names in an array of `size` elements. -/
def arrayIndex (size : Nat) (i : Int) : Except OutOfBounds (Fin size) :=
  if inside : 0 ≤ i ∧ i.toNat < size then .ok ⟨i.toNat, inside.2⟩ else .error .index

@[simp] theorem arrayIndex_natCast {size : Nat} (i : Fin size) :
    arrayIndex size ((i : Nat) : Int) = .ok i := by
  simp [arrayIndex]

/-- The characters before the first NUL. -/
def text (bytes : List UInt8) : List UInt8 := bytes.takeWhile (· ≠ 0)

/-- The string that `%s` prints. -/
def readString (bytes : List UInt8) : Except OutOfBounds (List UInt8) :=
  if 0 ∈ bytes then .ok (text bytes) else .error .read

/-- `p + n` -/
def advance (bytes : List UInt8) (n : Nat) : Except OutOfBounds (List UInt8) :=
  if n ≤ bytes.length then .ok (bytes.drop n) else .error .read

/-- `n` bytes read through a pointer. -/
def readBytes (bytes : List UInt8) (n : Nat) : Except OutOfBounds (List UInt8) :=
  if n ≤ bytes.length then .ok (bytes.take n) else .error .read

/-- `p[i]` -/
def readByte (bytes : List UInt8) (i : Nat) : Except OutOfBounds UInt8 :=
  match bytes[i]? with
  | some b => .ok b
  | none => .error .read

def strlen : List UInt8 → Except OutOfBounds Nat
  | [] => .error .read
  | b :: bytes =>
      if b = 0 then .ok 0
      else do
        let n ← strlen bytes
        .ok (n + 1)

/-- The offset of the character that `strchr` finds. -/
def strchr (c : UInt8) : List UInt8 → Except OutOfBounds (Option Nat)
  | [] => .error .read
  | b :: bytes =>
      if b = c then .ok (some 0)
      else if b = 0 then .ok none
      else do
        let found ← strchr c bytes
        .ok (found.map (· + 1))

/-- The sign of the result is that of the first difference. -/
def strncmp : List UInt8 → List UInt8 → Nat → Except OutOfBounds Int
  | _, _, 0 => .ok 0
  | a :: as, b :: bs, n + 1 =>
      if a ≠ b then .ok ((a.toNat : Int) - b.toNat)
      else if a = 0 then .ok 0
      else strncmp as bs n
  | _, _, _ + 1 => .error .read

/-- The bytes that `strncpy(dst, src, n)` stores. -/
def strncpyBytes : List UInt8 → Nat → Except OutOfBounds (List UInt8)
  | _, 0 => .ok []
  | [], _ + 1 => .error .read
  | b :: src, n + 1 =>
      if b = 0 then .ok (List.replicate (n + 1) 0)
      else do
        let rest ← strncpyBytes src n
        .ok (b :: rest)

/-- The characters before the first `c`. -/
def before (c : UInt8) (s : List UInt8) : List UInt8 := s.takeWhile (· ≠ c)

/-- The characters after the first `c`, none when there is no `c`. -/
def after (c : UInt8) (s : List UInt8) : List UInt8 := (s.dropWhile (· ≠ c)).drop 1

/-- `if (len >= size) len = size - 1;` -/
def clamp (size len : Nat) : Nat := if len ≥ size then size - 1 else len

/-- `s` followed by NUL bytes up to `n` bytes. -/
def padded (n : Nat) (s : List UInt8) : List UInt8 := s ++ List.replicate (n - s.length) 0

theorem length_padded {n : Nat} {s : List UInt8} (fits : s.length ≤ n) :
    (padded n s).length = n := by
  simp [padded, fits]

/-- A `char[n]`. -/
@[ext]
structure CharArray (n : Nat) where
  bytes : List UInt8
  length : bytes.length = n
deriving DecidableEq, Repr

namespace CharArray

variable {n : Nat}

theorem length_overwrite (a : CharArray n) {new : List UInt8} (fits : new.length ≤ n) :
    (new ++ a.bytes.drop new.length).length = n := by
  simp [a.length, fits]

theorem length_set (a : CharArray n) (i : Nat) (b : UInt8) : (a.bytes.set i b).length = n := by
  simp [a.length]

/-- `{ 0 }` -/
def zero (n : Nat) : CharArray n where
  bytes := List.replicate n 0
  length := List.length_replicate

/-- The array that holds `s` and otherwise NUL bytes. -/
def ofText (s : List UInt8) (fits : s.length ≤ n) : CharArray n where
  bytes := padded n s
  length := length_padded fits

/-- The array after its first bytes have become `new`. -/
def overwrite (a : CharArray n) (new : List UInt8) (fits : new.length ≤ n) : CharArray n where
  bytes := new ++ a.bytes.drop new.length
  length := a.length_overwrite fits

/-- Store bytes from the start of the array. -/
def write (a : CharArray n) (new : List UInt8) : Except OutOfBounds (CharArray n) :=
  if fits : new.length ≤ n then .ok (a.overwrite new fits) else .error .write

/-- `a[i]` -/
def get (a : CharArray n) (i : Fin n) : UInt8 := a.bytes.get (i.cast a.length.symm)

/-- `a[i] = b` -/
def set (a : CharArray n) (i : Nat) (b : UInt8) : Except OutOfBounds (CharArray n) :=
  if i < n then
    .ok
      { bytes := a.bytes.set i b
        length := a.length_set i b }
  else
    .error .write

/-- `strncpy(a, src, count)` -/
def strncpy (a : CharArray n) (src : List UInt8) (count : Nat) : Except OutOfBounds (CharArray n) := do
  let new ← strncpyBytes src count
  a.write new

/-- `memcpy(a, src, count)` -/
def memcpy (a : CharArray n) (src : List UInt8) (count : Nat) : Except OutOfBounds (CharArray n) := do
  let new ← readBytes src count
  a.write new

end CharArray

/-- An argument of `printf`. -/
inductive PrintfArg where
  /-- `%d` -/
  | d (n : Int)
  /-- `%s` with the characters of the string -/
  | s (characters : List UInt8)
  /-- `%s` with a string constant -/
  | constant (text : String)
deriving DecidableEq, Repr

/-- One call of `printf`. -/
structure Line where
  format : String
  args : List PrintfArg
deriving DecidableEq, Repr

section Text

variable {bytes : List UInt8}

theorem text_cons_of_ne {b : UInt8} (nonzero : b ≠ 0) : text (b :: bytes) = b :: text bytes := by
  simp [text, nonzero]

@[simp] theorem text_cons_zero : text (0 :: bytes) = [] := by
  simp [text]

theorem zero_notMem_text : 0 ∉ text bytes := by
  intro member
  have nonzero := List.mem_takeWhile_imp member
  simp at nonzero

/-- Behind a character other than NUL the string is still terminated. -/
theorem terminated_of_cons {b : UInt8} (terminated : 0 ∈ b :: bytes) (nonzero : b ≠ 0) :
    0 ∈ bytes :=
  (List.mem_cons.mp terminated).resolve_left (Ne.symm nonzero)

/-- A terminated string is its text, a NUL and whatever follows. -/
theorem text_append_zero (terminated : 0 ∈ bytes) : ∃ rest, bytes = text bytes ++ 0 :: rest := by
  induction bytes with
  | nil =>
      simp at terminated
  | cons b bytes ih =>
      by_cases isNul : b = 0
      · subst isNul
        exact ⟨bytes, by simp⟩
      · obtain ⟨rest, split⟩ := ih (terminated_of_cons terminated isNul)
        refine ⟨rest, ?_⟩
        rw [text_cons_of_ne isNul, List.cons_append, ← split]

theorem text_of_append_zero {s rest : List UInt8} (noNul : 0 ∉ s) : text (s ++ 0 :: rest) = s := by
  induction s with
  | nil =>
      simp
  | cons b s ih =>
      have nonzero : b ≠ 0 := fun isNul => noNul (isNul ▸ List.mem_cons_self)
      have tail := ih fun member => noNul (List.mem_cons_of_mem b member)
      rw [List.cons_append, text_cons_of_ne nonzero, tail]

theorem text_isPrefix : text bytes <+: bytes := List.takeWhile_prefix _

/-- A pointer moved along a string points to the rest of the string. -/
theorem advance_text {n : Nat} (terminated : 0 ∈ bytes) (inside : n ≤ (text bytes).length) :
    ∃ rest, advance bytes n = .ok rest ∧ 0 ∈ rest ∧ text rest = (text bytes).drop n := by
  obtain ⟨stale, split⟩ := text_append_zero terminated
  have noNul : 0 ∉ (text bytes).drop n := fun member => zero_notMem_text (List.mem_of_mem_drop member)
  have dropped : bytes.drop n = (text bytes).drop n ++ 0 :: stale :=
    calc bytes.drop n
        = (text bytes ++ 0 :: stale).drop n := congrArg (List.drop n) split
      _ = (text bytes).drop n ++ 0 :: stale := List.drop_append_of_le_length inside
  refine ⟨bytes.drop n, if_pos (inside.trans text_isPrefix.length_le), ?_, ?_⟩
  · simp [dropped]
  · rw [dropped, text_of_append_zero noNul]

theorem readString_eq (terminated : 0 ∈ bytes) : readString bytes = .ok (text bytes) :=
  if_pos terminated

theorem readString_of_append_zero {s rest : List UInt8} (noNul : 0 ∉ s) :
    readString (s ++ 0 :: rest) = .ok s := by
  rw [readString, if_pos (by simp), text_of_append_zero noNul]

theorem padded_eq_append_zero {n : Nat} {s : List UInt8} (shorter : s.length < n) :
    padded n s = s ++ 0 :: List.replicate (n - s.length - 1) 0 := by
  have count : n - s.length = (n - s.length - 1) + 1 := by omega
  rw [padded, count, List.replicate_succ, Nat.add_sub_cancel]

theorem readString_padded {n : Nat} {s : List UInt8} (noNul : 0 ∉ s) (shorter : s.length < n) :
    readString (padded n s) = .ok s := by
  rw [padded_eq_append_zero shorter]
  exact readString_of_append_zero noNul

/-- Texts that leave room for the NUL are told apart by their arrays. -/
theorem padded_inj {n : Nat} {s t : List UInt8} (noNul : 0 ∉ s) (shorter : s.length < n)
    (noNul' : 0 ∉ t) (shorter' : t.length < n) : padded n s = padded n t ↔ s = t := by
  constructor
  · intro same
    have held := readString_padded noNul shorter
    rw [same, readString_padded noNul' shorter'] at held
    exact (Except.ok.inj held).symm
  · intro same
    rw [same]

end Text

section Parts

variable {c : UInt8} {s : List UInt8}

theorem before_isPrefix : before c s <+: s := List.takeWhile_prefix _

theorem before_append_after (member : c ∈ s) : s = before c s ++ c :: after c s := by
  induction s with
  | nil => cases member
  | cons b s ih =>
      by_cases found : b = c
      · subst found
        simp [before, after]
      · have later := (List.mem_cons.mp member).resolve_left (Ne.symm found)
        have tail := ih later
        simp only [before, after] at tail ⊢
        rw [List.takeWhile_cons_of_pos (by simpa using found),
          List.dropWhile_cons_of_pos (by simpa using found), List.cons_append, ← tail]

theorem before_of_notMem (absent : c ∉ s) : before c s = s := by
  rw [before, List.takeWhile_eq_self_iff]
  intro b member
  have apart : b ≠ c := fun same => absent (same ▸ member)
  simpa using apart

theorem after_of_notMem (absent : c ∉ s) : after c s = [] := by
  have split := List.takeWhile_append_dropWhile (p := (· ≠ c)) (l := s)
  have whole := before_of_notMem absent
  rw [before] at whole
  rw [whole] at split
  rw [after, List.append_right_eq_self.mp split, List.drop_nil]

/-- The last byte of a padded array is NUL when the string leaves room for it. -/
theorem getLast?_padded {n : Nat} (shorter : s.length < n) : (padded n s).getLast? = some 0 := by
  have count : n - s.length = (n - s.length - 1) + 1 := by omega
  rw [padded, count, List.replicate_succ', ← List.append_assoc, List.getLast?_concat]

end Parts

section Functions

variable {bytes : List UInt8}

theorem strlen_eq (terminated : 0 ∈ bytes) : strlen bytes = .ok (text bytes).length := by
  induction bytes with
  | nil => cases terminated
  | cons b bytes ih =>
      by_cases isNul : b = 0
      · subst isNul
        simp [strlen]
      · rw [strlen, if_neg isNul, ih (terminated_of_cons terminated isNul), text_cons_of_ne isNul]
        rfl

theorem strchr_eq {c : UInt8} (nonzero : c ≠ 0) (terminated : 0 ∈ bytes) :
    strchr c bytes = .ok (if c ∈ text bytes then some (before c (text bytes)).length else none) := by
  induction bytes with
  | nil => cases terminated
  | cons b bytes ih =>
      by_cases isNul : b = 0
      · subst isNul
        simp [strchr, Ne.symm nonzero]
      · have tail := ih (terminated_of_cons terminated isNul)
        rw [strchr, text_cons_of_ne isNul, tail]
        by_cases found : b = c
        · subst found
          simp [before]
        · rw [if_neg found, if_neg isNul]
          by_cases later : c ∈ text bytes
          · simp [before, found, later, bind, Except.bind]
          · simp [Ne.symm found, later, bind, Except.bind]

/-- `strncmp(p, "...", n)` with the length of the literal is zero exactly for its prefixes. -/
theorem strncmp_literal {literal : List UInt8} (noNul : 0 ∉ literal) (terminated : 0 ∈ bytes) :
    ∃ r, strncmp bytes (literal ++ [0]) literal.length = .ok r ∧
      (r = 0 ↔ literal <+: text bytes) := by
  induction literal generalizing bytes with
  | nil => exact ⟨0, by rw [List.length_nil, strncmp], by simp⟩
  | cons a literal ih =>
      have nonzero : a ≠ 0 := fun isNul => noNul (isNul ▸ List.mem_cons_self)
      cases bytes with
      | nil => cases terminated
      | cons b bytes =>
          rw [List.cons_append, List.length_cons, strncmp]
          by_cases same : b = a
          · subst same
            obtain ⟨r, compared, zero⟩ :=
              ih (fun member => noNul (List.mem_cons_of_mem b member))
                (terminated_of_cons terminated nonzero)
            refine ⟨r, ?_, ?_⟩
            · rw [if_neg (not_not_intro rfl), if_neg nonzero, compared]
            · rw [text_cons_of_ne nonzero, List.cons_prefix_cons, zero]
              exact (and_iff_right rfl).symm
          · refine ⟨_, if_pos same, ?_⟩
            have differ : b.toNat ≠ a.toNat := fun equal => same (UInt8.toNat_inj.mp equal)
            constructor
            · intro zero
              omega
            · intro starts
              by_cases isNul : b = 0
              · subst isNul
                simp at starts
              · rw [text_cons_of_ne isNul, List.cons_prefix_cons] at starts
                exact absurd starts.1.symm same

theorem memcpy_zero {n count : Nat} {src : List UInt8} (inside : count ≤ n)
    (readable : count ≤ src.length) :
    (CharArray.zero n).memcpy src count =
      .ok (.ofText (src.take count) ((List.length_take_le _ _).trans inside)) := by
  have length : (src.take count).length = count := by simp [readable]
  have fits : (src.take count).length ≤ n := length.trans_le inside
  rw [CharArray.memcpy, readBytes, if_pos readable]
  change (CharArray.zero n).write (src.take count) = _
  rw [CharArray.write, dif_pos fits]
  congr 1
  ext1
  simp only [CharArray.overwrite, CharArray.zero, CharArray.ofText, padded, List.drop_replicate]

/-- Copying a clamped part of a string into a zeroed array of `size` bytes. -/
theorem memcpy_clamped {size : Nat} (nonempty : 0 < size) {src part : List UInt8}
    (starts : part <+: src) :
    ∃ a, (CharArray.zero size).memcpy src (clamp size part.length) = .ok a ∧
      a.bytes = padded size (part.take (size - 1)) := by
  obtain ⟨rest, rfl⟩ := starts
  have inside : clamp size part.length ≤ size := by
    rw [clamp]
    split <;> omega
  have readable : clamp size part.length ≤ (part ++ rest).length := by
    rw [clamp, List.length_append]
    split <;> omega
  have taken : (part ++ rest).take (clamp size part.length) = part.take (size - 1) := by
    rw [clamp]
    split
    · rw [List.take_append_of_le_length (by omega)]
    · rw [List.take_left, List.take_of_length_le (by omega)]
  exact ⟨_, memcpy_zero inside readable, congrArg (padded size) taken⟩

/-- `strncpy` stores at most `n` characters and fills up with NUL bytes. -/
theorem strncpyBytes_eq {src : List UInt8} {n : Nat} (reachable : n ≤ src.length) :
    strncpyBytes src n = .ok (padded n ((text src).take n)) := by
  induction src generalizing n with
  | nil =>
      obtain rfl : n = 0 := Nat.le_zero.mp reachable
      rfl
  | cons b src ih =>
      cases n with
      | zero => rfl
      | succ n =>
          by_cases isNul : b = 0
          · subst isNul
            simp [strncpyBytes, padded]
          · have tail := ih (Nat.le_of_succ_le_succ reachable)
            rw [strncpyBytes, if_neg isNul, tail, text_cons_of_ne isNul]
            simp [padded, bind, Except.bind]

/-- `a[0] = '\0';` makes the string of the array empty. -/
theorem set_first_nul {n : Nat} (a : CharArray n) (nonempty : 0 < n) :
    ∃ emptied, a.set 0 0 = .ok emptied ∧ ∃ stale, emptied.bytes = 0 :: stale := by
  rcases a with ⟨bytes, length⟩
  cases bytes with
  | nil =>
      rw [← length] at nonempty
      cases nonempty
  | cons b stale =>
      rw [CharArray.set, if_pos nonempty]
      exact ⟨_, rfl, stale, rfl⟩

/-- The idiom `strncpy(a, src, n - 1); a[n - 1] = '\0';` on a `char[n]`: nothing of the old contents
    remains. -/
theorem strncpy_then_terminate {n count : Nat} (a : CharArray n) {src : List UInt8}
    (last : count + 1 = n) (reachable : count ≤ src.length) :
    ∃ copied, a.strncpy src count = .ok copied ∧
      copied.set count 0 =
        .ok (.ofText ((text src).take count) ((List.length_take_le _ _).trans (Nat.le.intro last))) := by
  have short : ((text src).take count).length ≤ count := List.length_take_le _ _
  have length : (padded count ((text src).take count)).length = count := length_padded short
  have fits : (padded count ((text src).take count)).length ≤ n := by omega
  obtain ⟨old, rest⟩ : ∃ old, a.bytes.drop count = [old] := by
    apply List.length_eq_one_iff.mp
    rw [List.length_drop, a.length]
    omega
  refine ⟨a.overwrite (padded count ((text src).take count)) fits, ?_, ?_⟩
  · rw [CharArray.strncpy, strncpyBytes_eq reachable]
    exact dif_pos fits
  · rw [CharArray.set, if_pos (by omega)]
    congr 1
    ext1
    simp only [CharArray.overwrite, CharArray.ofText]
    rw [length, rest, List.set_append_right count 0 length.le, length, Nat.sub_self,
      List.set_cons_zero, padded, padded, List.append_assoc, ← List.replicate_succ']
    congr 2
    omega

end Functions

end CString
