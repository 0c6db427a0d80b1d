/-!
# Outlines

Nested data as text, either in one line or with one line for each part.

* `Outline`: atoms, labelled parts and groups in brackets.
* `Outline.flat`: the text in one line.
* `Outline.pretty`: the text with one line for each part, four columns deeper than its group.
-/

namespace LiquidTemplate

/-- **Brackets of a group.** The gap stands inside of them in a flat text. -/
structure Brackets where
  opening : String
  closing : String
  gap : String

/-- **Outline.** -/
inductive Outline where
  | atom (text : String)
  | labelled (label : String) (value : Outline)
  | group (brackets : Brackets) (items : List Outline)

namespace Outline

/-- A group with a name and labelled parts. -/
def record (name : String) (fields : List (String × Outline)) : Outline :=
  group ⟨name ++ " \x7b", "\x7d", " "⟩ (fields.map fun f => labelled f.1 f.2)

/-- A group with a name and one part without a label. -/
def wrapped (name : String) (value : Outline) : Outline :=
  group ⟨name ++ "(", ")", ""⟩ [value]

/-- A list. -/
def list (items : List Outline) : Outline :=
  group ⟨"[", "]", ""⟩ items

/-- Something that can be missing. -/
def option : Option Outline → Outline
  | some value => wrapped "Some" value
  | none => atom "None"

/-- A truth value. -/
def bool (b : Bool) : Outline :=
  atom (if b then "true" else "false")

/-- A number. -/
def nat (n : Nat) : Outline :=
  atom (toString n)

mutual

/-- **Text in one line.** -/
def flat : Outline → String
  | atom text => text
  | labelled label value => label ++ ": " ++ flat value
  | group b items =>
    match flatAll items with
    | [] => b.opening ++ b.closing
    | texts => b.opening ++ b.gap ++ String.intercalate ", " texts ++ b.gap ++ b.closing

/-- The texts of all parts. -/
def flatAll : List Outline → List String
  | [] => []
  | o :: os => flat o :: flatAll os

end

mutual

/-- **Text with a line for each part**, behind the margin `margin` from the second line on. -/
def pretty (margin : String) : Outline → String
  | atom text => text
  | labelled label value => label ++ ": " ++ pretty margin value
  | group b items =>
    let parts := prettyAll (margin ++ "    ") items
    if parts.isEmpty then b.opening ++ b.closing
    else b.opening ++ "\n" ++ parts ++ margin ++ b.closing

/-- The lines of all parts. -/
def prettyAll (margin : String) : List Outline → String
  | [] => ""
  | o :: os => margin ++ pretty margin o ++ ",\n" ++ prettyAll margin os

end

end Outline

end LiquidTemplate
