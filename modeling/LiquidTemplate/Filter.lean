import LiquidTemplate.Date.Read
import LiquidTemplate.Date.Written
import LiquidTemplate.Filter.Arguments
import LiquidTemplate.Filter.Arithmetic
import LiquidTemplate.Filter.Collection
import LiquidTemplate.Filter.Markup
import LiquidTemplate.Filter.Truncate
import LiquidTemplate.Filter.Url
import LiquidTemplate.Text.Case

/-!
# Filters

* `Filter`: the filters that every template can use.
* `Filter.name`, `Filter.ofName?`: their names.
* `Filter.run`: the outcome of a filter, with the history of prepared objects after it.
* `Filter.apply`: the result of a filter that has one, with that history.
-/

namespace LiquidTemplate

/-- **Filter.** -/
inductive Filter where
  | abs | append | capitalize | ceil | compact | date | default | dividedBy | downcase | escape
  | escapeOnce | first | floor | join | last | lstrip | map | minus | modulo | newlineToBr | plus
  | prepend | range | remove | removeFirst | replace | replaceFirst | reverse | round | rstrip
  | size | slice | sort | sortNatural | split | strip | stripHtml | stripNewlines | times
  | truncate | truncateWords | uniq | upcase | urlDecode | urlEncode
deriving DecidableEq, Repr

namespace Filter

/-- All filters, in the order of their names. -/
def all : List Filter :=
  [abs, append, capitalize, ceil, compact, date, default, dividedBy, downcase, escape, escapeOnce,
    first, floor, join, last, lstrip, map, minus, modulo, newlineToBr, plus, prepend, range, remove,
    removeFirst, replace, replaceFirst, reverse, round, rstrip, size, slice, sort, sortNatural,
    split, strip, stripHtml, stripNewlines, times, truncate, truncateWords, uniq, upcase, urlDecode,
    urlEncode]

/-- The name of a filter in templates. -/
def name : Filter → String
  | abs => "abs"
  | append => "append"
  | capitalize => "capitalize"
  | ceil => "ceil"
  | compact => "compact"
  | date => "date"
  | default => "default"
  | dividedBy => "divided_by"
  | downcase => "downcase"
  | escape => "escape"
  | escapeOnce => "escape_once"
  | first => "first"
  | floor => "floor"
  | join => "join"
  | last => "last"
  | lstrip => "lstrip"
  | map => "map"
  | minus => "minus"
  | modulo => "modulo"
  | newlineToBr => "newline_to_br"
  | plus => "plus"
  | prepend => "prepend"
  | range => "range"
  | remove => "remove"
  | removeFirst => "remove_first"
  | replace => "replace"
  | replaceFirst => "replace_first"
  | reverse => "reverse"
  | round => "round"
  | rstrip => "rstrip"
  | size => "size"
  | slice => "slice"
  | sort => "sort"
  | sortNatural => "sort_natural"
  | split => "split"
  | strip => "strip"
  | stripHtml => "strip_html"
  | stripNewlines => "strip_newlines"
  | times => "times"
  | truncate => "truncate"
  | truncateWords => "truncatewords"
  | uniq => "uniq"
  | upcase => "upcase"
  | urlDecode => "url_decode"
  | urlEncode => "url_encode"

/-- **Filter of a name.** One of them has a second name. -/
def ofName? (name : String) : Option Filter :=
  if name = "urldecode" then some urlDecode else all.find? fun f => f.name == name

/-! ### Parts of the filters -/

/-- A change of the text of a value. -/
def onText (objects : Objects) (value : Value) (f : List Char → List Char) : Value :=
  .ofChars (f (value.chars objects))

/-- A change of the text of a value; a missing value stays missing. -/
def onPresentText (objects : Objects) (value : Value) (f : List Char → List Char) : Value :=
  if value.isMissing then .none else onText objects value f

/-- A change of a number. -/
def onQuantity (value : Value) (f : Quantity → Quantity) : Except FilterError Value :=
  value.toQuantity.map fun q => .ofQuantity (f q)

/-- An operation on two numbers. -/
def onQuantities (a b : Value) (f : Quantity → Quantity → Quantity) : Except FilterError Value := do
  let x ← a.toQuantity
  let y ← b.toQuantity
  return .ofQuantity (f x y)

/-- A division of two numbers. -/
def onDivision (a b : Value) (f : Quantity → Quantity → Option Quantity) :
    Except FilterError Value := do
  let x ← a.toQuantity
  let y ← b.toQuantity
  match f x y with
  | some q => return .ofQuantity q
  | none => throw .divisionByZero

/-- The number of a value, with zero for what is none. -/
def quantityOrZero (value : Value) : Quantity :=
  match value.toQuantity with
  | .ok q => q
  | .error _ => .int 0

/-- The whole number of an argument, or the default. -/
def indexOr (arg : Option Value) (default : Int64) : Except FilterError Int64 :=
  match arg with
  | some value => value.toIndex
  | none => .ok default

theorem indexOr_eq {arg : Option Value} {default n : Int64} (h : arg.getD (.int default) = .int n) :
    indexOr arg default = .ok n := by
  cases arg with
  | none => exact congrArg Except.ok (Value.int.inj h)
  | some value =>
    obtain rfl : value = .int n := h
    rfl

/-- The first element of a list or the first character of a text. -/
def firstOf : Value → Value
  | .list items => items.head?.getD .none
  | .str s => (s.toList.head?.map fun c => Value.ofChars [c]).getD .none
  | _ => .none

/-- The last element of a list or the last character of a text. -/
def lastOf : Value → Value
  | .list items => items.getLast?.getD .none
  | .str s => (s.toList.getLast?.map fun c => Value.ofChars [c]).getD .none
  | _ => .none

/-- A list or a text from its end to its beginning. -/
def reverseOf : Value → Value
  | .list items => .list items.reverse
  | .str s => .ofChars s.toList.reverse
  | value => value

/-- The number of elements of a collection or of characters of a text. -/
def sizeOf : Value → Value
  | .list items => .ofNat items.length
  | .str s => .ofNat s.length
  | .map entries => .ofNat entries.length
  | _ => .int 0

/-- The texts of a list with a separator between neighbours, or the text of any other value. -/
def joinOf (objects : Objects) (separator : List Char) : Value → Value
  | .list items => .ofChars (Text.join separator (items.map fun v => v.chars objects))
  | value => .ofChars (value.chars objects)

/-- The pieces of a text; without a separator these are its characters. -/
def pieces (separator cs : List Char) : List (List Char) :=
  if separator.isEmpty then cs.map fun c => [c] else Text.split separator cs

/-- The pieces of the text of a value, of which a missing value has none. -/
def splitOf (objects : Objects) (separator : List Char) (value : Value) : Value :=
  if value.isMissing then .list []
  else .list ((pieces separator (value.chars objects)).map Value.ofChars)

/-- A part of a list or of a text; a missing value is an empty text. -/
def sliceOf (objects : Objects) (offset length : Int64) : Value → Value
  | .list items => .list (sliceList items offset length)
  | .undefined | .none => .str ""
  | value => .ofChars (sliceList (value.chars objects) offset length)

/-- The bounds that a range is given by. -/
def boundsOf : Value → List Value
  | .list items => items
  | value => [value]

/-- The moment of a timestamp or of a text. -/
def momentOf? : Value → Option Moment
  | .int n => Moment.ofTimestamp? n.toInt
  | .float x => Moment.ofTimestamp? (Number.toWord x).toInt
  | .str s => Moment.ofText? (Text.trim s.toList)
  | _ => none

/-- A moment in the form of a pattern. What is no moment stays as it is, and so does everything
without a pattern. -/
def dateOf (objects : Objects) (pattern : Option Value) (value : Value) :
    Except FilterError Value :=
  let pattern := ((pattern.filter fun p => !p.isMissing).map fun p => p.text objects).getD ""
  if value.isMissing then .ok .none
  else if pattern.isEmpty then .ok value
  else
    match momentOf? value with
    | none => .ok value
    | some moment =>
      match moment.write? pattern.toList with
      | some cs => .ok (.ofChars cs)
      | none => .error (.invalidFormat pattern)

/-- The order of sorting for a filter: by the values, or by their texts without regard to case. -/
def sortOf (objects : Objects) (natural : Bool) (property : Option String) (value : Value) : Value :=
  let cmp := if natural then Value.compareNatural Text.lowerCase objects else Value.compare
  value.sortBy cmp (Value.key objects property)

/-! ### Application -/

/-- **Result of a filter** that prepares no objects, and of which the objects look all the time as
they do now; `map` prepares them if it is told what to read of them. -/
def evaluate (f : Filter) (objects : Objects) (value : Value) (args : FilterArguments) :
    Except FilterError Value :=
  let required (index : Nat) (argument : String) := args.required f.name index argument
  let needle (index : Nat) (argument : String) :=
    (required index argument).map fun v => v.chars objects
  match f with
  | abs => onQuantity value Quantity.absolute
  | append => (needle 0 "string").map fun s => onText objects value fun cs => cs ++ s
  | capitalize => .ok (onText objects value Text.capitalize)
  | ceil => onQuantity value Quantity.ceiling
  | compact => .ok (value.compact objects (args.get? 0 "property"))
  | date => dateOf objects (args.get? 0 "format") value
  | default => .ok (if value.isTruthy then value else (args.get? 0 "default").getD .undefined)
  | dividedBy => do onDivision value (← required 0 "divisor") Quantity.divide?
  | downcase => .ok (onText objects value Text.lowerCase)
  | escape => .ok (onPresentText objects value Markup.escape)
  | escapeOnce =>
    .ok (onPresentText objects value fun cs => Markup.escape (Markup.unescape cs))
  | first => .ok (firstOf value)
  | floor => onQuantity value Quantity.floor
  | join => .ok (joinOf objects (args.charsOr objects 0 "separator" " ") value)
  | last => .ok (lastOf value)
  | lstrip => .ok (onText objects value Text.trimStart)
  | map => .error (.missingArgument f.name "property")
  | minus => do onQuantities value (← required 0 "operand") Quantity.minus
  | modulo => do onDivision value (← required 0 "modulus") Quantity.modulo?
  | newlineToBr =>
    .ok (onText objects value fun cs =>
      Text.replace ['\n'] "<br />\n".toList (Text.replace ['\r', '\n'] ['\n'] cs))
  | plus => do onQuantities value (← required 0 "operand") Quantity.plus
  | prepend => (needle 0 "string").map fun s => onText objects value fun cs => s ++ cs
  | range => rangeOf (boundsOf value) ((args.get? 0 "inclusive").any Value.isTruthy)
  | remove => (needle 0 "string").map fun s => onText objects value (Text.replace s [])
  | removeFirst => (needle 0 "string").map fun s => onText objects value (Text.replaceFirst s [])
  | replace =>
    (needle 0 "string").map fun s =>
      onText objects value (Text.replace s (args.charsOr objects 1 "replacement" ""))
  | replaceFirst =>
    (needle 0 "string").map fun s =>
      onText objects value (Text.replaceFirst s (args.charsOr objects 1 "replacement" ""))
  | reverse => .ok (reverseOf value)
  | round => do
    let digits ← indexOr (args.get? 0 "digits") 0
    onQuantity value (Quantity.round digits.toInt)
  | rstrip => .ok (onText objects value Text.trimEnd)
  | size => .ok (sizeOf value)
  | slice => do
    let offset ← (← required 0 "offset").toIndex
    let length ← indexOr (args.get? 1 "length") 1
    return sliceOf objects offset length value
  | sort => .ok (sortOf objects false (args.text? objects 0 "property") value)
  | sortNatural => .ok (sortOf objects true (args.text? objects 0 "property") value)
  | split => .ok (splitOf objects (args.charsOr objects 0 "separator" " ") value)
  | strip => .ok (onText objects value Text.trim)
  | stripHtml => .ok (onText objects value Markup.strip)
  | stripNewlines =>
    .ok (onText objects value fun cs => Text.replace ['\n'] [] (Text.replace ['\r', '\n'] [] cs))
  | times => do
    let factor ← required 0 "operand"
    return .ofQuantity ((quantityOrZero value).times (quantityOrZero factor))
  | truncate => do
    let length ← indexOr (args.get? 0 "length") 255
    let leeway ← indexOr (args.get? 2 "leeway") 5
    let ending := args.charsOr objects 1 "end" "..."
    return onText objects value (Text.truncate length.toInt.toNat leeway.toInt.toNat ending)
  | truncateWords => do
    let count ← indexOr (args.get? 0 "words") 15
    let ending := args.charsOr objects 1 "end" "..."
    return onText objects value (Text.truncateWords (max count.toInt 1).toNat ending)
  | uniq => .ok (value.uniq (Value.key objects (args.text? objects 0 "property")))
  | upcase => .ok (onText objects value Text.upperCase)
  | urlDecode => .ok (onPresentText objects value Url.decode)
  | urlEncode => .ok (onPresentText objects value Url.encode)

/-- **Run of a filter** in a host program: its outcome, and the history after it. -/
def run (f : Filter) (host : Host) (history : History) (value : Value) (args : FilterArguments) :
    Except FilterError Value × History :=
  let objects := host history
  match f, args.text? objects 0 "property" with
  | map, some name =>
    let (found, history) := mapField host name history value.flatten
    (.ok (.list found), history)
  | f, _ => (f.evaluate objects value args, history)

/-- **Application of a filter**: the result of its run, if it has one, and the history after it. -/
def apply (f : Filter) (host : Host) (history : History) (value : Value) (args : FilterArguments) :
    Except FilterError (Value × History) :=
  let (outcome, history) := f.run host history value args
  outcome.map fun result => (result, history)

/-- **No filter but `map` prepares objects.** -/
theorem run_of_ne_map {f : Filter} (hf : f ≠ map) (host : Host) (history : History) (value : Value)
    (args : FilterArguments) :
    f.run host history value args = (f.evaluate (host history) value args, history) := by
  unfold run
  dsimp only
  split
  · exact absurd rfl hf
  · rfl

theorem apply_of_ne_map {f : Filter} (hf : f ≠ map) (host : Host) (history : History)
    (value : Value) (args : FilterArguments) :
    f.apply host history value args =
      (f.evaluate (host history) value args).map fun result => (result, history) := by
  rw [apply, run_of_ne_map hf]

theorem run_map {args : FilterArguments} {host : Host} {history : History} {name : String}
    (hname : args.text? (host history) 0 "property" = some name) (value : Value) :
    map.run host history value args =
      (.ok (.list (mapField host name history value.flatten).1),
        (mapField host name history value.flatten).2) := by
  unfold run
  dsimp only
  rw [hname]

end Filter

end LiquidTemplate
