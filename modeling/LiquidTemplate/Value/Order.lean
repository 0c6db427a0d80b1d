import LiquidTemplate.Value.Basic

/-!
# Equality and order of values

* `Value.equal`: numbers are equal across their kinds, missing values are equal to each other, and
  an object equals only itself.
* `Value.compare`: the order of sorting. Values of different kinds are ordered by their kinds.
-/

namespace LiquidTemplate.Value

mutual

/-- **Equality.** -/
def equal : Value → Value → Bool
  | undefined, b | none, b => b.isMissing
  | bool a, bool b => a == b
  | int a, int b => a == b
  | int a, float b => Quantity.equal (.int a) (.float b)
  | float a, int b => Quantity.equal (.float a) (.int b)
  | float a, float b => Quantity.equal (.float a) (.float b)
  | str a, str b => a == b
  | list a, list b => allEqual a b
  | map a, map b => entriesEqual a b
  | object a, object b => a == b
  | _, _ => false

/-- Whether two lists have equal elements. -/
def allEqual : List Value → List Value → Bool
  | [], [] => true
  | a :: as, b :: bs => equal a b && allEqual as bs
  | _, _ => false

/-- Whether two lists have the same keys with equal values. -/
def entriesEqual : List (String × Value) → List (String × Value) → Bool
  | [], [] => true
  | (j, a) :: as, (k, b) :: bs => j == k && equal a b && entriesEqual as bs
  | _, _ => false

end

/-- The place of a kind of values in the order. -/
def rank : Value → Nat
  | undefined | none => 0
  | bool _ => 1
  | int _ | float _ => 2
  | str _ => 3
  | list _ => 4
  | map _ => 5
  | object _ => 6

mutual

/-- **Order.** Maps, objects and missing values are not told apart. -/
def compare : Value → Value → Ordering
  | int a, int b => Quantity.compare (.int a) (.int b)
  | int a, float b => Quantity.compare (.int a) (.float b)
  | float a, int b => Quantity.compare (.float a) (.int b)
  | float a, float b => Quantity.compare (.float a) (.float b)
  | str a, str b => Ord.compare a b
  | bool a, bool b => Ord.compare a b
  | list a, list b => compareAll a b
  | a, b => Ord.compare a.rank b.rank

/-- Order of lists: by the first difference, and a beginning comes before the longer list. -/
def compareAll : List Value → List Value → Ordering
  | [], [] => .eq
  | [], _ :: _ => .lt
  | _ :: _, [] => .gt
  | a :: as, b :: bs => (compare a b).then (compareAll as bs)

end

end LiquidTemplate.Value
