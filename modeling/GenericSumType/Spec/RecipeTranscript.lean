/-
Module: GenericSumType.Spec.RecipeTranscript
Layer: Spec
Purpose: What the recipe handlers tell on the terminal: the reply of a catalogue to a command, the line that
  shows a reply, and the request that a reply says was carried out.
Imports: GenericSumType.Library.Transcript, GenericSumType.Spec.RecipeCatalogue
Trusted boundary: human-reviewed statement of purpose
Main exports: Reply, Reply.line, Reply.performed, reply, replies, RecipeStore.replay
Open obligations: none
-/
import GenericSumType.Library.Transcript
import GenericSumType.Spec.RecipeCatalogue

namespace GenericSumType

namespace RecipeParam

open CString

/-- A number that the range check refuses is replied as it came; any other is that of a slot. -/
inductive Reply where
  | created (n : Fin RECIPE_SLOT_MAX) (name : RecipeName)
  | outOfRange (number : Int)
  | deleted (n : Fin RECIPE_SLOT_MAX)
  | deleteMissing (number : Int)
  | deleteSelected (n : Fin RECIPE_SLOT_MAX)
  | selected (n : Fin RECIPE_SLOT_MAX) (name : RecipeName)
  | selectMissing (number : Int)
  | current (n : Fin RECIPE_SLOT_MAX) (name : RecipeName)
  | nothingSelected

namespace Reply

/-- The `printf` call of a reply. -/
def line : Reply → Line
  | created n name => ⟨"[create] 品種番号=%d name=\"%s\" を作成しました\n", [.d (n : Nat), .s name.chars]⟩
  | outOfRange number => ⟨"[create] NG: 品種番号 %d は範囲外です\n", [.d number]⟩
  | deleted n => ⟨"[delete] 品種番号=%d を削除しました\n", [.d (n : Nat)]⟩
  | deleteMissing number => ⟨"[delete] NG: 品種番号 %d は存在しません\n", [.d number]⟩
  | deleteSelected n =>
      ⟨"[delete] NG: 品種番号 %d は現在選択中のため削除できません\n", [.d (n : Nat)]⟩
  | selected n name =>
      ⟨"[select] 現在品種番号を %d (\"%s\") に切り替えました\n", [.d (n : Nat), .s name.chars]⟩
  | selectMissing number => ⟨"[select] NG: 品種番号 %d は存在しません\n", [.d number]⟩
  | current n name => ⟨"[query]  現在品種番号=%d (\"%s\")\n", [.d (n : Nat), .s name.chars]⟩
  | nothingSelected => ⟨"[query]  現在品種未選択\n", []⟩

/-- The request that was carried out, none when it was refused. -/
def performed : Reply → Option RecipeRequest
  | created n name => some (.create n name)
  | deleted n => some (.delete n)
  | selected n _ => some (.select n)
  | current _ _ | nothingSelected => some .query
  | outOfRange _ | deleteMissing _ | deleteSelected _ | selectMissing _ => none

end Reply

def replyCreate (c : CmdRecipeCreate) : Reply :=
  match slotOf c.number with
  | none => .outOfRange c.number
  | some n => .created n (.ofArray c.name)

def replyDelete (s : RecipeCatalogue) (c : CmdRecipeDelete) : Reply :=
  match slotOf c.number with
  | none => .deleteMissing c.number
  | some n =>
      match s.names n with
      | none => .deleteMissing c.number
      | some _ => if s.selected = some n then .deleteSelected n else .deleted n

def replySelect (s : RecipeCatalogue) (c : CmdRecipeSelect) : Reply :=
  match slotOf c.number with
  | none => .selectMissing c.number
  | some n =>
      match s.names n with
      | none => .selectMissing c.number
      | some name => .selected n name

/-- A selection is a slot in use, and its name is replied too. -/
def replyQuery (s : RecipeCatalogue) : Reply :=
  match chosen : s.selected with
  | none => .nothingSelected
  | some n => .current n ((s.names n).get (s.selectedInUse n chosen))

/-- The replies to the commands, in list order. -/
def replyTo (s : RecipeCatalogue) : (i : Fin RecipeCommand.size) → RecipeCommand.Payload model i → Reply
  | ⟨0, _⟩ => replyCreate
  | ⟨1, _⟩ => replyDelete s
  | ⟨2, _⟩ => replySelect s
  | ⟨3, _⟩ => fun (_ : CmdRecipeQuery) => replyQuery s

def reply (s : RecipeCatalogue) (c : Command) : Reply := replyTo s c.1 c.2

/-- The replies to a queue of commands on an empty catalogue. -/
def replies (commands : List Command) : List Reply :=
  Transcript.reports reply (fun s c => s.serve (request c)) .empty commands

/-- Do to a store what a reply says was done. -/
def RecipeStore.replay (store : RecipeStore) (r : Reply) : RecipeStore := store.after r.performed

end RecipeParam

end GenericSumType
