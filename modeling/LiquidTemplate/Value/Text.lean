import LiquidTemplate.Number.Text
import LiquidTemplate.Value.Basic

/-!
# Texts of values

* `Value.text`: a value as a template shows it.
-/

namespace LiquidTemplate.Value

mutual

/-- **Text of a value.** A missing value is empty, and the elements of a list are joined without
anything between them. -/
def text (objects : Objects) : Value → String
  | undefined | none => ""
  | bool b => if b then "true" else "false"
  | int n => String.ofList (Number.intText n.toInt)
  | float x => String.ofList (Number.templateFloat x)
  | str s => s
  | list items => listText objects items
  | map entries => "\x7b" ++ String.intercalate ", " (entryTexts objects entries) ++ "\x7d"
  | object id => objects.render id

/-- The texts of all values of a list, joined. -/
def listText (objects : Objects) : List Value → String
  | [] => ""
  | v :: vs => text objects v ++ listText objects vs

/-- The texts of entries. -/
def entryTexts (objects : Objects) : List (String × Value) → List String
  | [] => []
  | (k, v) :: entries => ("'" ++ k ++ "': " ++ text objects v) :: entryTexts objects entries

end

/-- The characters of the text of a value. -/
def chars (objects : Objects) (value : Value) : List Char :=
  (value.text objects).toList

@[simp] theorem chars_ofChars (objects : Objects) (cs : List Char) :
    (ofChars cs).chars objects = cs := by
  rw [chars, ofChars, text, String.toList_ofList]

end LiquidTemplate.Value
