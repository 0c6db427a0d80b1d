import LiquidTemplate.Filter.Sort
import LiquidTemplate.Text.Search
import LiquidTemplate.Value.Coercion
import LiquidTemplate.Value.Order
import LiquidTemplate.Value.Text

/-!
# Filters on collections

* `Value.sortBy`: a stable sort.
* `Value.uniq`, `Value.compact`: leave elements out.
* `History`, `Host`, `mapField`: one part of each element, of objects after they were prepared.
* `rangeFrom`, `window?`: the numbers of a range and the bounds of a slice.
-/

namespace LiquidTemplate

namespace Value

/-- The key of an element: its part `property`, or itself. -/
def key (objects : Objects) (property : Option String) (value : Value) : Value :=
  match property with
  | some property => value.field objects property
  | Option.none => value

/-- **Stable sort** of a list by keys; any other value stays as it is. -/
def sortBy (cmp : Value → Value → Ordering) (key : Value → Value) : Value → Value
  | list items => list (Sort.ofList (fun a b => cmp (key a) (key b) == .lt) items)
  | value => value

/-- The order of texts without regard to case. -/
def compareNatural (lower : List Char → List Char) (objects : Objects) (a b : Value) : Ordering :=
  let folded (v : Value) := String.ofList (lower (v.chars objects))
  Ord.compare (folded a) (folded b)

/-- The elements whose keys do not occur in `seen` or before. -/
def uniqFrom (key : Value → Value) (seen : List Value) : List Value → List Value
  | [] => []
  | v :: vs =>
    if seen.any fun s => s.equal (key v) then uniqFrom key seen vs
    else v :: uniqFrom key (seen ++ [key v]) vs

/-- **First occurrences** by key. -/
def uniq (key : Value → Value) (value : Value) : Value :=
  list (uniqFrom key [] value.items)

/-- Whether an element stays when others are left out: with a property, maps and objects need that
part, and other elements must not equal it. -/
def isKept (objects : Objects) (property : Option Value) (item : Value) : Bool :=
  match property with
  | Option.none | some undefined | some none => !item.isMissing
  | some sentinel =>
    match item with
    | map _ | object _ => !(item.field objects (sentinel.text objects)).isMissing
    | item => !item.equal sentinel

/-- **Elements that are there.** -/
def compact (objects : Objects) (property : Option Value) (value : Value) : Value :=
  list (value.items.filter (isKept objects property))

end Value

/-! ### Prepared objects -/

/-- **History** of an application: the objects that were prepared, the last one first. -/
abbrev History := List Nat

/-- **Host program**: its objects, depending on which of them were prepared. -/
abbrev Host := History → Objects

/-- The history after a value was prepared; only objects can be. -/
def History.prepare (history : History) : Value → History
  | .object id => id :: history
  | _ => history

/-- **Parts of elements.** Each object is prepared before its part is read. Missing parts are left
out. -/
def mapField (host : Host) (name : String) (history : History) :
    List Value → List Value × History
  | [] => ([], history)
  | v :: vs =>
    let history := history.prepare v
    let (others, last) := mapField host name history vs
    let found := v.field (host history) name
    (if found.isMissing then others else found :: others, last)

/-! ### Ranges and slices -/

/-- Whether `n` comes before the end `stop` of a range, upwards or downwards. -/
def isBeforeStop (stop step n : Int64) : Bool :=
  (0 < step && n < stop) || (step < 0 && stop < n)

/-- How far `n` is from the end `stop` of a range. -/
def distanceToStop (stop step n : Int64) : Nat :=
  if 0 < step then (stop.toInt - n.toInt).toNat else (n.toInt - stop.toInt).toNat

/-- **A step ahead** is nearer to the end of a range. -/
theorem distanceToStop_lt {stop step n next : Int64} (h : isBeforeStop stop step n = true)
    (hnext : Number.checkedAdd n step = some next) :
    distanceToStop stop step next < distanceToStop stop step n := by
  have hvalue : next.toInt = n.toInt + step.toInt := Number.word?_eq_some_iff.1 hnext
  simp only [isBeforeStop, Bool.or_eq_true, Bool.and_eq_true, decide_eq_true_eq,
    Int64.lt_iff_toInt_lt, Int64.toInt_zero] at h
  simp only [distanceToStop, Int64.lt_iff_toInt_lt, Int64.toInt_zero]
  split <;> omega

/-- **Range loop.** Puts `n` and what follows it, step by step, behind the numbers so far, up to the
end `stop`, which does not belong to the range. It also ends where the next number is out of range. -/
def rangeFrom (stop step : Int64) (numbers : Array Value) (n : Int64) : Array Value :=
  if _h : isBeforeStop stop step n = true then
    match _hnext : Number.checkedAdd n step with
    | some next => rangeFrom stop step (numbers.push (.int n)) next
    | none => numbers.push (.int n)
  else numbers
termination_by distanceToStop stop step n
decreasing_by exact distanceToStop_lt ‹_› ‹_›

/-- The bounds and the step of a range. -/
def rangeBounds : List Value → Except FilterError (Int64 × Int64 × Int64)
  | [stop] => return (0, ← stop.toInteger, 1)
  | [start, stop] => return (← start.toInteger, ← stop.toInteger, 1)
  | [start, stop, step] => return (← start.toInteger, ← stop.toInteger, ← step.toInteger)
  | _ => .error (.typeMismatch "one to three range bounds")

/-- **Range** of whole numbers. With `inclusive` the stop is moved by one, as far as that is in
range. -/
def rangeOf (bounds : List Value) (inclusive : Bool) : Except FilterError Value := do
  let (start, stop, step) ← rangeBounds bounds
  if step == 0 then
    .error (.typeMismatch "non-zero range step")
  else
    let stop := if inclusive then Number.clamp (stop.toInt + step.toInt.sign) else stop
    .ok (.list (rangeFrom stop step #[] start).toList)

/-- **Bounds of a slice** of `size` elements, if any belong to it. A negative offset counts from the
end. The flag says whether its sum with the size has wrapped around. -/
def window? (size : Nat) (offset length : Int64) : Option (Nat × Nat) × Bool :=
  let size := Int64.ofNat size
  let (start, overflow) := if offset < 0 then Number.overflowingAdd offset size else (offset, false)
  if start < 0 || size < start || length ≤ 0 then (none, overflow)
  else
    let stop := min (Number.saturatingAdd start length) size
    (some (Number.toSize start, Number.toSize stop), overflow)

/-- **Slice** of a list. -/
def sliceList {α : Type} (xs : List α) (offset length : Int64) : List α :=
  (window? xs.length offset length).1.elim [] fun (start, stop) => (xs.take stop).drop start

end LiquidTemplate
