import LiquidTemplate.Number.Quantity

/-!
# Values

What a template computes with.

* `Value`: missing values, truth values, numbers, strings, lists, maps and objects.
* `Objects`: what the objects of the host program look like at one time.
* `Value.ofEntries`: the map of a list of entries, sorted by key.
* `Value.field?`: a part of a value by its name.
* `Value.items`, `Value.flatten`: the elements of a value.
-/

namespace LiquidTemplate

/-- **Value.** The entries of a map are sorted by their keys, and no key occurs twice. An object is
known by its number alone. -/
inductive Value where
  | undefined
  | none
  | bool (b : Bool)
  | int (n : Int64)
  | float (x : Float)
  | str (s : String)
  | list (items : List Value)
  | map (entries : List (String × Value))
  | object (id : Nat)

/-- **Objects of the host program** at one time: their attributes, their methods without arguments,
and their texts. -/
structure Objects where
  attribute? : (id : Nat) → (name : String) → Option Value
  method? : (id : Nat) → (name : String) → Option Value
  render : (id : Nat) → String

namespace Value

instance : Inhabited Value := ⟨undefined⟩

/-- Whether the value is missing. -/
def isMissing : Value → Bool
  | undefined | none => true
  | _ => false

/-- **Truth.** Missing values, zero and all that is empty are false. -/
def isTruthy : Value → Bool
  | undefined | none => false
  | bool b => b
  | int n => n != 0
  | float x => Number.orderKey? x != some 0
  | str s => !s.isEmpty
  | list items => !items.isEmpty
  | map entries => !entries.isEmpty
  | object _ => true

/-- The name of the kind of value. -/
def typeName : Value → String
  | undefined => "undefined"
  | none => "none"
  | bool _ => "bool"
  | int _ => "int"
  | float _ => "float"
  | str _ => "string"
  | list _ => "list"
  | map _ => "map"
  | object _ => "object"

/-- A number as a value. -/
def ofQuantity : Quantity → Value
  | .int n => int n
  | .float x => float x

/-- A length as a value. -/
def ofNat (n : Nat) : Value :=
  int (Int64.ofNat n)

/-- A text as a value. -/
def ofChars (cs : List Char) : Value :=
  str (String.ofList cs)

/-- Puts an entry into sorted entries, in place of the one with its key. -/
def insertEntry (key : String) (value : Value) :
    List (String × Value) → List (String × Value)
  | [] => [(key, value)]
  | (k, v) :: entries =>
    if key < k then (key, value) :: (k, v) :: entries
    else if key = k then (key, value) :: entries
    else (k, v) :: insertEntry key value entries

/-- **Map of entries.** Of several entries with one key the last one counts. -/
def ofEntries (entries : List (String × Value)) : Value :=
  map (entries.foldl (fun sorted e => insertEntry e.1 e.2 sorted) [])

/-- **Part of a value** by its name. Attributes of objects come before their methods; the ends of an
empty list are there, but missing. -/
def field? (objects : Objects) (name : String) : Value → Option Value
  | map entries => entries.lookup name
  | list items =>
    match name with
    | "size" => some (ofNat items.length)
    | "first" => some (items.head?.getD none)
    | "last" => some (items.getLast?.getD none)
    | _ => Option.none
  | object id => objects.attribute? id name <|> objects.method? id name
  | _ => Option.none

/-- The part of a value by its name, undefined if there is none. -/
def field (objects : Objects) (name : String) (value : Value) : Value :=
  (value.field? objects name).getD undefined

/-- **Elements** of a list. A missing value has none, and any other is its own only element. -/
def items : Value → List Value
  | list items => items
  | undefined | none => []
  | value => [value]

mutual

/-- **Elements at any depth** that are neither lists nor missing. -/
def flatten : Value → List Value
  | list items => flattenAll items
  | undefined | none => []
  | value => [value]

/-- The elements at any depth of all values of a list. -/
def flattenAll : List Value → List Value
  | [] => []
  | v :: vs => flatten v ++ flattenAll vs

end

theorem flattenAll_eq_flatMap (vs : List Value) : flattenAll vs = vs.flatMap flatten := by
  induction vs with
  | nil => rfl
  | cons v vs ih => simp [flattenAll, ih]

end Value

end LiquidTemplate
