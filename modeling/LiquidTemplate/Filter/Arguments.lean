import LiquidTemplate.Filter.Failure
import LiquidTemplate.Value.Text

/-!
# Arguments of filters

* `FilterArguments`: values in order and by name.
* `FilterArguments.get?`: an argument by its place or its name.
-/

namespace LiquidTemplate

/-- **Arguments of a filter.** -/
structure FilterArguments where
  positional : List Value := []
  named : List (String × Value) := []

namespace FilterArguments

/-- **Argument** at a place, else the one with the name. -/
def get? (args : FilterArguments) (index : Nat) (name : String) : Option Value :=
  args.positional[index]? <|> args.named.lookup name

/-- An argument that has to be there. -/
def required (args : FilterArguments) (filter : String) (index : Nat) (name : String) :
    Except FilterError Value :=
  match args.get? index name with
  | some value => .ok value
  | none => .error (.missingArgument filter name)

/-- The characters of an argument, or of the default. -/
def charsOr (args : FilterArguments) (objects : Objects) (index : Nat) (name default : String) :
    List Char :=
  match args.get? index name with
  | some value => value.chars objects
  | none => default.toList

theorem required_eq {args : FilterArguments} {filter name : String} {index : Nat} {value : Value}
    (h : args.get? index name = some value) : args.required filter index name = .ok value := by
  rw [required, h]

theorem charsOr_eq {args : FilterArguments} {objects : Objects} {name default : String} {index : Nat}
    {value : Value} (h : args.get? index name = some value) :
    args.charsOr objects index name default = value.chars objects := by
  rw [charsOr, h]

/-- The text of an argument that is not missing. -/
def text? (args : FilterArguments) (objects : Objects) (index : Nat) (name : String) :
    Option String :=
  (args.get? index name).bind fun value =>
    if value.isMissing then none else some (value.text objects)

end FilterArguments

end LiquidTemplate
