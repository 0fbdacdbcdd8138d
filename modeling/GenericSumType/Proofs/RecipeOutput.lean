/-
Module: GenericSumType.Proofs.RecipeOutput
Layer: Proofs
Purpose: The bytes that a recipe queue writes tell its replies, whatever bytes the names have.  A name can
  hold quotes and line ends, but it is too short to hold what a reply would go on with.
Imports: GenericSumType.Library.FormatReading, GenericSumType.Proofs.RecipeTranscript
Trusted boundary: none
Main exports: Reply.head, Reply.tail, Reply.render_line, Reply.written_told, Reply.written_injective,
  output_tells_store
Open obligations: none
-/
import GenericSumType.Library.FormatReading
import GenericSumType.Proofs.RecipeTranscript

namespace GenericSumType

namespace RecipeParam

open CString Printf

/-- `'"'` -/
def quote : UInt8 := 34

namespace Reply

/-- The line up to the quote before the name, or to its end. -/
def head : Reply → Line
  | created n _ => ⟨"[create] 品種番号=%d name=", [.d (n : Nat)]⟩
  | outOfRange number => ⟨"[create] NG: 品種番号 %d は範囲外です", [.d number]⟩
  | deleted n => ⟨"[delete] 品種番号=%d を削除しました", [.d (n : Nat)]⟩
  | deleteMissing number => ⟨"[delete] NG: 品種番号 %d は存在しません", [.d number]⟩
  | deleteSelected n => ⟨"[delete] NG: 品種番号 %d は現在選択中のため削除できません", [.d (n : Nat)]⟩
  | selected n _ => ⟨"[select] 現在品種番号を %d (", [.d (n : Nat)]⟩
  | selectMissing number => ⟨"[select] NG: 品種番号 %d は存在しません", [.d number]⟩
  | current n _ => ⟨"[query]  現在品種番号=%d (", [.d (n : Nat)]⟩
  | nothingSelected => ⟨"[query]  現在品種未選択", []⟩

/-- The name that is replied, and the text after its second quote. -/
def quoted : Reply → Option (RecipeName × List UInt8)
  | created _ name => some (name, utf8 " を作成しました\n")
  | selected _ name => some (name, utf8 ") に切り替えました\n")
  | current _ name => some (name, utf8 ")\n")
  | outOfRange _ | deleted _ | deleteMissing _ | deleteSelected _ | selectMissing _ | nothingSelected => none

/-- What follows the head. -/
def tail (r : Reply) : List UInt8 :=
  match r.quoted with
  | some (name, after) => quote :: (name.chars ++ quote :: after)
  | none => [newline]

/-- The heads, with the types of their arguments. -/
def heads : List Signature :=
  [("[create] 品種番号=%d name=", [.number]), ("[create] NG: 品種番号 %d は範囲外です", [.number]),
    ("[delete] 品種番号=%d を削除しました", [.number]), ("[delete] NG: 品種番号 %d は存在しません", [.number]),
    ("[delete] NG: 品種番号 %d は現在選択中のため削除できません", [.number]),
    ("[select] 現在品種番号を %d (", [.number]), ("[select] NG: 品種番号 %d は存在しません", [.number]),
    ("[query]  現在品種番号=%d (", [.number]), ("[query]  現在品種未選択", [])]

theorem heads_readable : ReadableTable heads where
  readable := by decide +kernel
  apart := by decide +kernel

theorem head_mem (r : Reply) : signature r.head ∈ heads := by
  cases r <;> simp [heads, signature, head, kind]

/-- The heads are of 29 bytes at least, and have neither quotes nor line ends. -/
theorem heads_clean : ∀ s ∈ heads, (pieces s.1).any fun ps =>
    29 ≤ least ps ∧ quote ∉ texts ps ∧ newline ∉ texts ps := by
  decide +kernel

theorem head_numbers (r : Reply) : ∀ arg ∈ r.head.args, kind arg = .number := by
  cases r <;> simp [head, kind]

/-- What is written for the head. -/
theorem render_head (r : Reply) : ∃ front, render r.head = some front ∧ 29 ≤ front.length ∧
    quote ∉ front ∧ newline ∉ front := by
  obtain ⟨ps, parsed, fit, _⟩ := heads_readable.parse r.head_mem
  obtain ⟨front, filled⟩ := fill_of_fits fit
  have clean := heads_clean _ r.head_mem
  rw [signature, parsed] at clean
  simp only [Option.any_some, decide_eq_true_eq] at clean
  obtain ⟨long, noQuote, noLineEnd⟩ := clean
  have numbers {b : UInt8} (other : isNumeral b = false) : ∀ arg ∈ r.head.args, b ∉ shown arg := by
    intro arg member inside
    have number := r.head_numbers arg member
    cases arg with
    | d n => exact absurd (isNumeral_of_mem_decimal inside) (other ▸ Bool.false_ne_true)
    | s characters => cases number
    | constant text => cases number
  exact ⟨front, (render_of_pieces parsed).trans filled, long.trans (least_le_length filled),
    notMem_fill (by decide) noQuote (numbers rfl) filled,
    notMem_fill (by decide) noLineEnd (numbers rfl) filled⟩

/-- The head tells the reply but for the name, and the text after it. -/
theorem head_told {a b : Reply} (same : a.head = b.head) :
    a.quoted.map Prod.snd = b.quoted.map Prod.snd ∧
      (a.quoted.map Prod.fst = b.quoted.map Prod.fst → a = b) := by
  cases a <;> cases b <;> simp_all [head, quoted, Fin.ext_iff]

/-- The line of a reply without a name ends behind the head. -/
theorem render_plain {line head : String} {args : List PrintfArg} {front : List UInt8}
    (same : pieces line = (pieces head).map (appendText [newline]))
    (rendered : render ⟨head, args⟩ = some front) : render ⟨line, args⟩ = some (front ++ [newline]) := by
  obtain ⟨ps, parsed, filled⟩ := Option.bind_eq_some_iff.mp rendered
  rw [show pieces head = some ps from parsed, Option.map_some] at same
  rw [render_of_pieces same]
  exact fill_appendText filled

/-- The line of a reply with a name goes on with the name in quotes. -/
theorem render_named {line head : String} {n : Int} {name front after : List UInt8}
    (same : pieces line =
      (pieces head).map fun ps => appendText [quote] ps ++ [.s false 0, .text (quote :: after)])
    (member : signature ⟨head, [.d n]⟩ ∈ heads) (rendered : render ⟨head, [.d n]⟩ = some front) :
    render ⟨line, [.d n, .s name]⟩ = some (front ++ quote :: (name ++ quote :: after)) := by
  obtain ⟨ps, parsed, fit, _⟩ := heads_readable.parse member
  rw [render_of_pieces parsed] at rendered
  rw [show pieces head = some ps from parsed, Option.map_some] at same
  have quoted : fill (appendText [quote] ps) [.d n] = some (front ++ [quote]) := fill_appendText rendered
  have named : fill [.s false 0, .text (quote :: after)] [.s name] = some (name ++ quote :: after) := by
    simp [fill, characters, padTo_zero]
  have fits_quoted : fits (appendText [quote] ps) ([PrintfArg.d n].map kind) := fits_appendText.trans fit
  rw [render_of_pieces same]
  refine (fill_append fits_quoted quoted named).trans ?_
  rw [List.append_assoc, List.singleton_append]

theorem render_line (r : Reply) {front : List UInt8} (rendered : render r.head = some front) :
    render r.line = some (front ++ r.tail) := by
  have member := r.head_mem
  cases r with
  | created n name =>
      rw [head] at member rendered
      exact render_named (by decide +kernel) member rendered
  | selected n name =>
      rw [head] at member rendered
      exact render_named (by decide +kernel) member rendered
  | current n name =>
      rw [head] at member rendered
      exact render_named (by decide +kernel) member rendered
  | outOfRange number => exact render_plain (by decide +kernel) rendered
  | deleted n => exact render_plain (by decide +kernel) rendered
  | deleteMissing number => exact render_plain (by decide +kernel) rendered
  | deleteSelected n => exact render_plain (by decide +kernel) rendered
  | selectMissing number => exact render_plain (by decide +kernel) rendered
  | nothingSelected => exact render_plain (by decide +kernel) rendered

/-- What is written for a reply. -/
def written (r : Reply) : List UInt8 := (render r.line).getD []

theorem written_eq (r : Reply) : ∃ front, render r.head = some front ∧ render r.line = some r.written ∧
    r.written = front ++ r.tail ∧ 29 ≤ front.length ∧ quote ∉ front ∧ newline ∉ front := by
  obtain ⟨front, rendered, long, clean⟩ := r.render_head
  have line := r.render_line rendered
  have all : r.written = front ++ r.tail := by rw [written, line, Option.getD_some]
  exact ⟨front, rendered, all ▸ line, all, long, clean⟩

/-- What follows the head begins with the quote or the line end that ends it. -/
theorem tail_starts (r : Reply) : ∃ b rest, r.tail = b :: rest ∧ (b = quote ∨ b = newline) := by
  rw [tail]
  cases r.quoted with
  | none => exact ⟨newline, [], rfl, .inr rfl⟩
  | some named => exact ⟨quote, _, rfl, .inl rfl⟩

/-- No quote comes soon in what is written for replies. -/
theorem written_far (rs : List Reply) : quote ∉ (rs.flatMap written).take 29 := by
  cases rs with
  | nil => exact List.not_mem_nil
  | cons r rs =>
      obtain ⟨front, _, _, all, long, noQuote, _⟩ := r.written_eq
      rw [List.flatMap_cons, all, List.append_assoc, List.take_append_of_le_length long]
      exact fun member => noQuote (List.mem_of_mem_take member)

theorem after_clean {r : Reply} {name : RecipeName} {after : List UInt8}
    (named : r.quoted = some (name, after)) : quote ∉ after ∧ 2 ≤ after.length := by
  cases r with
  | created n name =>
      obtain ⟨-, rfl⟩ := Prod.mk.inj (Option.some.inj named)
      exact ⟨by decide +kernel, by decide +kernel⟩
  | selected n name =>
      obtain ⟨-, rfl⟩ := Prod.mk.inj (Option.some.inj named)
      exact ⟨by decide +kernel, by decide +kernel⟩
  | current n name =>
      obtain ⟨-, rfl⟩ := Prod.mk.inj (Option.some.inj named)
      exact ⟨by decide +kernel, by decide +kernel⟩
  | _ => cases named

/-- A quote does not come again in a text after a name before a name could have ended. -/
theorem after_far {r : Reply} {name : RecipeName} {after rest : List UInt8}
    (named : r.quoted = some (name, after)) (far : quote ∉ rest.take 29) :
    quote ∉ (after ++ rest).take 31 := by
  obtain ⟨clean, long⟩ := after_clean named
  have short : rest.take (31 - after.length) <+: rest.take 29 := List.take_prefix_take_left (by omega)
  rw [List.take_append]
  exact List.not_mem_append (fun member => clean (List.mem_of_mem_take member))
    (fun member => far (short.subset member))

/-- The first reply is read off the bytes, if no quote comes soon after it. -/
theorem written_told {a b : Reply} {rest rest' : List UInt8} (far : quote ∉ rest.take 29)
    (far' : quote ∉ rest'.take 29) (same : a.written ++ rest = b.written ++ rest') :
    a = b ∧ rest = rest' := by
  obtain ⟨front, rendered, _, all, _, noQuote, noLineEnd⟩ := a.written_eq
  obtain ⟨front', rendered', _, all', _, noQuote', noLineEnd'⟩ := b.written_eq
  rw [all, all', List.append_assoc, List.append_assoc] at same
  have fronts : front = front' := by
    obtain ⟨c, t, tail, stop⟩ := a.tail_starts
    obtain ⟨c', t', tail', stop'⟩ := b.tail_starts
    rw [tail, tail', List.cons_append, List.cons_append] at same
    have clean {front : List UInt8} (noQuote : quote ∉ front) (noLineEnd : newline ∉ front) :
        ∀ x ∈ front, ¬(x = quote ∨ x = newline) := by
      rintro x member (rfl | rfl)
      · exact noQuote member
      · exact noLineEnd member
    exact (append_stop_inj (clean noQuote noLineEnd) (clean noQuote' noLineEnd') stop stop' same).1
  subst fronts
  have tails := List.append_cancel_left same
  have heads := render_told heads_readable a.head_mem b.head_mem (rendered.trans rendered'.symm)
  obtain ⟨afters, told⟩ := head_told heads
  cases named : a.quoted with
  | none =>
      have named' : b.quoted = none := by
        rw [named] at afters
        exact Option.map_eq_none_iff.mp afters.symm
      rw [tail, tail, named, named'] at tails
      exact ⟨told (by rw [named, named']), (List.cons.inj tails).2⟩
  | some pair =>
      obtain ⟨name, after⟩ := pair
      rw [named] at afters
      obtain ⟨⟨name', after'⟩, named', rfl⟩ := Option.map_eq_some_iff.mp afters.symm
      rw [tail, tail, named, named'] at tails
      have names : name.chars ++ quote :: (after' ++ rest) = name'.chars ++ quote :: (after' ++ rest') := by
        simpa using tails
      have fits := name.fits
      have fits' := name'.fits
      rw [RECIPE_NAME_MAX] at fits fits'
      obtain ⟨chars, later⟩ :=
        append_far_inj (by omega) (by omega) (after_far named far) (after_far named' far') names
      have same_name : name = name' := RecipeName.ext chars
      exact ⟨told (by rw [named, named', same_name]), List.append_cancel_left later⟩

/-- The bytes written for replies tell the replies. -/
theorem written_injective : Function.Injective fun rs : List Reply => rs.flatMap written := by
  intro rs rs' same
  have never_empty (r : Reply) (rest : List UInt8) : r.written ++ rest ≠ [] := by
    obtain ⟨front, _, _, all, long, _⟩ := r.written_eq
    intro empty
    rw [all, List.append_assoc, List.append_eq_nil_iff] at empty
    rw [empty.1] at long
    exact absurd long (by decide)
  induction rs generalizing rs' with
  | nil =>
      cases rs' with
      | nil => rfl
      | cons r' rs' => exact absurd same.symm (never_empty r' _)
  | cons r rs ih =>
      cases rs' with
      | nil => exact absurd same (never_empty r _)
      | cons r' rs' =>
          obtain ⟨rfl, rest⟩ := written_told (written_far rs) (written_far rs') same
          rw [ih rest]

theorem renderAll_lines (rs : List Reply) : renderAll (rs.map line) = some (rs.flatMap written) := by
  rw [List.flatMap_def]
  apply renderAll_of_map
  rw [List.map_map, List.map_map]
  apply List.map_congr_left
  intro r _
  obtain ⟨_, _, rendered, _⟩ := r.written_eq
  exact rendered

end Reply

/-- Queues write the same bytes on fresh stores exactly when the replies to them are the same, and then
    they leave the same store, the bytes behind the names included. -/
theorem output_tells_store (commands others : List Command) :
    ∃ store store' lines lines' bytes bytes',
      dispatchQueue commands = .ok (.ok (store, lines)) ∧ renderAll lines = some bytes ∧
        dispatchQueue others = .ok (.ok (store', lines')) ∧ renderAll lines' = some bytes' ∧
        (bytes = bytes' ↔ replies commands = replies others) ∧ (bytes = bytes' → store = store') := by
  refine ⟨_, _, _, _, _, _, dispatchQueue_replies commands, Reply.renderAll_lines _,
    dispatchQueue_replies others, Reply.renderAll_lines _, Reply.written_injective.eq_iff, ?_⟩
  intro same
  rw [Reply.written_injective same]

end RecipeParam

end GenericSumType
