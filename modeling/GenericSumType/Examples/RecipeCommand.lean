/-
Module: GenericSumType.Examples.RecipeCommand
Layer: Examples
Purpose: `examples/recipe_command.h`: commands that create, delete, select and query the recipes of a
  parameter store.  The handlers keep their array accesses, those of the `printf` arguments included.
Imports: GenericSumType.Semantics.CommandLoop, GenericSumType.Library.CString
Trusted boundary: human-reviewed transcription of the header
Main exports: RecipeCommand, RecipeStore, onCreate, onDelete, onSelect, onQuery, handlers, freshStore
Open obligations: none
-/
import GenericSumType.Semantics.CommandLoop
import GenericSumType.Library.CString

namespace GenericSumType

namespace RecipeParam

open CString

abbrev RECIPE_SLOT_MAX : Nat := 8
abbrev RECIPE_NAME_MAX : Nat := 32

inductive TypeText where
  | CmdRecipeCreate
  | CmdRecipeDelete
  | CmdRecipeSelect
  | CmdRecipeQuery
  | RecipeStore
  | void
deriving DecidableEq, Repr

structure CmdRecipeCreate where
  number : Int
  name : CharArray RECIPE_NAME_MAX
deriving DecidableEq, Repr

structure CmdRecipeDelete where
  number : Int
deriving DecidableEq, Repr

structure CmdRecipeSelect where
  number : Int
deriving DecidableEq, Repr

structure CmdRecipeQuery where
  reserved : Int
deriving DecidableEq, Repr

def model : TypeModel TypeText where
  typedefs b := .named b false
  Val
    | .named .CmdRecipeCreate _ => CmdRecipeCreate
    | .named .CmdRecipeDelete _ => CmdRecipeDelete
    | .named .CmdRecipeSelect _ => CmdRecipeSelect
    | .named .CmdRecipeQuery _ => CmdRecipeQuery
    | _ => Unit
  zero
    | .named .CmdRecipeCreate _ => { number := 0, name := .zero RECIPE_NAME_MAX }
    | .named .CmdRecipeDelete _ => { number := 0 }
    | .named .CmdRecipeSelect _ => { number := 0 }
    | .named .CmdRecipeQuery _ => { reserved := 0 }
    | .named .RecipeStore _ => ()
    | .named .void _ => ()
    | .pointer _ _ => ()

/-- `RECIPE_COMMAND_VARIANTS` -/
def RecipeCommand : SumInstance TypeText where
  NAME := "RecipeCommand"
  VARIANTS :=
    [{ tag := "create", type := { base := .CmdRecipeCreate, tail := [] } },
      { tag := "delete", type := { base := .CmdRecipeDelete, tail := [] } },
      { tag := "select", type := { base := .CmdRecipeSelect, tail := [] } },
      { tag := "query", type := { base := .CmdRecipeQuery, tail := [] } }]
  DISPATCH_FN := "RecipeCommand_dispatch"
  VOID := [.name .void]
  CTX_TYPE := [.name .RecipeStore]
  nonempty := by simp
  tagsDistinct := by simp
  onParamsVisible := by decide
  copyParamsVisible := by decide

structure RecipeSlot where
  used : Int
  name : CharArray RECIPE_NAME_MAX
deriving DecidableEq, Repr

/-- `current` is the number of the selected recipe, -1 when there is none; queries write
    `lastQueryResult`. -/
structure RecipeStore where
  slots : Vector RecipeSlot RECIPE_SLOT_MAX
  current : Int
  lastQueryResult : Int
deriving DecidableEq, Repr

namespace RecipeStore

/-- `store->slots[i]` -/
def slot (store : RecipeStore) (i : Fin RECIPE_SLOT_MAX) : RecipeSlot := store.slots.get i

/-- `store->slots[i] = slot` -/
def setSlot (store : RecipeStore) (i : Fin RECIPE_SLOT_MAX) (slot : RecipeSlot) : RecipeStore :=
  { store with slots := store.slots.set i slot }

theorem slot_setSlot_self (store : RecipeStore) (i : Fin RECIPE_SLOT_MAX) (slot : RecipeSlot) :
    (store.setSlot i slot).slot i = slot :=
  Vector.getElem_set_self i.isLt

theorem slot_setSlot_of_ne (store : RecipeStore) {i j : Fin RECIPE_SLOT_MAX} (apart : i ≠ j)
    (slot : RecipeSlot) : (store.setSlot i slot).slot j = store.slot j :=
  Vector.getElem_set_ne i.isLt j.isLt (Fin.val_ne_of_ne apart)

end RecipeStore

/-- `fresh_store()` of the tests: no slot is used and nothing is selected. -/
def freshStore : RecipeStore where
  slots := Vector.replicate RECIPE_SLOT_MAX { used := 0, name := .zero RECIPE_NAME_MAX }
  current := -1
  lastQueryResult := -1

def slotIndexValid (number : Int) : Bool := number ≥ 0 && number < RECIPE_SLOT_MAX

/-- What a handler leaves behind. -/
abbrev Handled : Type := Except OutOfBounds (RecipeStore × Line)

def onCreate (c : CmdRecipeCreate) (store : RecipeStore) : Handled :=
  if !slotIndexValid c.number then
    .ok (store, ⟨"[create] NG: 品種番号 %d は範囲外です\n", [.d c.number]⟩)
  else do
    let i ← arrayIndex RECIPE_SLOT_MAX c.number
    let slot := store.slot i
    let copied ← slot.name.strncpy c.name.bytes (RECIPE_NAME_MAX - 1)
    let name ← copied.set (RECIPE_NAME_MAX - 1) 0
    let shown ← readString name.bytes
    .ok
      (store.setSlot i { used := 1, name := name },
        ⟨"[create] 品種番号=%d name=\"%s\" を作成しました\n", [.d c.number, .s shown]⟩)

/-- `!slot_index_valid(number) || !store->slots[number].used` -/
def notInUse (store : RecipeStore) (number : Int) : Except OutOfBounds Bool :=
  if !slotIndexValid number then
    .ok true
  else do
    let i ← arrayIndex RECIPE_SLOT_MAX number
    .ok ((store.slot i).used == 0)

def onDelete (c : CmdRecipeDelete) (store : RecipeStore) : Handled := do
  let missing ← notInUse store c.number
  if missing then
    .ok (store, ⟨"[delete] NG: 品種番号 %d は存在しません\n", [.d c.number]⟩)
  else if store.current = c.number then
    .ok (store, ⟨"[delete] NG: 品種番号 %d は現在選択中のため削除できません\n", [.d c.number]⟩)
  else do
    let i ← arrayIndex RECIPE_SLOT_MAX c.number
    let name ← (store.slot i).name.set 0 0
    .ok
      (store.setSlot i { used := 0, name := name },
        ⟨"[delete] 品種番号=%d を削除しました\n", [.d c.number]⟩)

def onSelect (c : CmdRecipeSelect) (store : RecipeStore) : Handled := do
  let missing ← notInUse store c.number
  if missing then
    .ok (store, ⟨"[select] NG: 品種番号 %d は存在しません\n", [.d c.number]⟩)
  else do
    let store := { store with current := c.number }
    let i ← arrayIndex RECIPE_SLOT_MAX c.number
    let shown ← readString (store.slot i).name.bytes
    .ok
      (store, ⟨"[select] 現在品種番号を %d (\"%s\") に切り替えました\n", [.d c.number, .s shown]⟩)

def onQuery (_ : CmdRecipeQuery) (store : RecipeStore) : Handled :=
  let store := { store with lastQueryResult := store.current }
  if store.current ≥ 0 then do
    let i ← arrayIndex RECIPE_SLOT_MAX store.current
    let shown ← readString (store.slot i).name.bytes
    .ok (store, ⟨"[query]  現在品種番号=%d (\"%s\")\n", [.d store.current, .s shown]⟩)
  else
    .ok (store, ⟨"[query]  現在品種未選択\n", []⟩)

/-- The handlers in list order. -/
def handlers : ContextHandlers (RecipeCommand.Payload model) OutOfBounds RecipeStore Line
  | ⟨0, _⟩ => onCreate
  | ⟨1, _⟩ => onDelete
  | ⟨2, _⟩ => onSelect
  | ⟨3, _⟩ => onQuery

/-- A `RecipeCommand` value. -/
abbrev Command : Type := (i : Fin RecipeCommand.size) × RecipeCommand.Payload model i

/-- `RecipeCommand_dispatch(&cmd, &store, on_create, on_delete, on_select, on_query);` for each command
    of a queue, on a fresh store. -/
def dispatchQueue (commands : List Command) : Except Fault (Session OutOfBounds RecipeStore Line) :=
  RecipeCommand.dispatchAll model handlers freshStore commands

end RecipeParam

end GenericSumType
