import LiquidTemplate.Filter.Failure
import LiquidTemplate.Number.Read
import LiquidTemplate.Text.Blank
import LiquidTemplate.Value.Basic

/-!
# Values as numbers

* `Value.toQuantity`: the number that a value is or that a string spells.
* `Value.toInteger`: a whole number, with zero for what is missing or unreadable.
* `Value.toIndex`: a whole number, with a failure for these.
-/

namespace LiquidTemplate

/-- **Number in a text**, with blanks around it: a whole number in range, else a double. -/
def Quantity.ofText? (s : String) : Option Quantity :=
  let cs := Text.trim s.toList
  (Number.readWord? cs).map int <|> (Number.readFloat? cs).map float

namespace Value

/-- **Number** of a value. -/
def toQuantity : Value → Except FilterError Quantity
  | int n => .ok (.int n)
  | float x => .ok (.float x)
  | bool b => .ok (.int (if b then 1 else 0))
  | str s =>
    match Quantity.ofText? s with
    | some q => .ok q
    | Option.none => .error (.invalidNumber s)
  | _ => .error (.typeMismatch "number")

/-- **Lenient whole number** of a value. Only collections and objects have none. -/
def toInteger : Value → Except FilterError Int64
  | list _ | map _ | object _ => .error (.typeMismatch "integer")
  | value =>
    match value.toQuantity with
    | .ok q => .ok q.toWord
    | .error _ => .ok 0

/-- **Strict whole number** of a value. -/
def toIndex (value : Value) : Except FilterError Int64 :=
  value.toQuantity.map Quantity.toWord

end Value

end LiquidTemplate
