import LiquidTemplate.Text.Basic

/-!
# Source texts and places in them

* `Span`: a range of byte offsets.
* `Source`: a named text.
* `Text.lineStarts`, `Text.lineIndex?`: the table of its lines, and the search for an offset in it.
* `Source.spanText?`: the text of a span, if its ends lie between characters.
* `Source.position?`: line and column of an offset, both counted from one.
* `Source.lineSpan?`, `Source.lineText?`: a line without its line end.
-/

namespace LiquidTemplate

/-- **Span.** A range of bytes from `lo` up to, not including, `hi`. -/
structure Span where
  lo : Nat
  hi : Nat
deriving DecidableEq, Inhabited

namespace Span

/-- The span between two offsets, in either order. -/
def between (a b : Nat) : Span :=
  if a ≤ b then ⟨a, b⟩ else ⟨b, a⟩

/-- The empty span at an offset. -/
def point (offset : Nat) : Span :=
  ⟨offset, offset⟩

/-- The number of bytes. -/
def length (s : Span) : Nat :=
  s.hi - s.lo

/-- Whether both ends are the same. -/
def isEmpty (s : Span) : Bool :=
  s.lo == s.hi

/-- The least span that covers two others. -/
def cover (s t : Span) : Span :=
  between (min s.lo t.lo) (max s.hi t.hi)

theorem between_le (a b : Nat) : (between a b).lo ≤ (between a b).hi := by
  unfold between
  split <;> simp <;> omega

end Span

namespace Text

/-- The rest of `cs` after `offset` bytes, if that is between two characters. -/
def dropBytes? : (offset : Nat) → List Char → Option (List Char)
  | 0, cs => some cs
  | _ + 1, [] => none
  | offset + 1, c :: cs =>
    if offset + 1 < c.utf8Size then none else dropBytes? (offset + 1 - c.utf8Size) cs

/-- The first `size` bytes of `cs`, if a character ends there. -/
def takeBytes? : (size : Nat) → List Char → Option (List Char)
  | 0, _ => some []
  | _ + 1, [] => none
  | size + 1, c :: cs =>
    if size + 1 < c.utf8Size then none
    else (takeBytes? (size + 1 - c.utf8Size) cs).map (c :: ·)

/-- **Lines.** The pieces of `cs` between newlines; there is always one more than newlines. -/
def lines : List Char → List (List Char)
  | [] => [[]]
  | c :: cs =>
    if c = '\n' then [] :: lines cs
    else
      match lines cs with
      | [] => [[c]]
      | line :: rest => (c :: line) :: rest

/-- A line without the newline and the carriage returns at its end. -/
def dropLineEnd (cs : List Char) : List Char :=
  (cs.reverse.dropWhile fun c => c = '\n' || c = '\r').reverse

/-! ### Tables of lines -/

/-- The offsets behind the newlines of `cs`, the first character of which is at `offset`. -/
def startsBehind (offset : Nat) : List Char → List Nat
  | [] => []
  | c :: cs =>
    let later := startsBehind (offset + c.utf8Size) cs
    if c = '\n' then (offset + 1) :: later else later

/-- **Table of lines.** The offsets at which the lines of `cs` begin. -/
def lineStarts (cs : List Char) : Array Nat :=
  (0 :: startsBehind 0 cs).toArray

/-- **Bisection.** The first index from `lo` to `hi` without a property, where no index without it is
before one that has it. -/
def bisect (p : Nat → Bool) (lo hi : Nat) : Nat :=
  if lo < hi then
    let middle := (lo + hi) / 2
    if p middle then bisect p (middle + 1) hi else bisect p lo middle
  else lo
termination_by hi - lo

/-- **Partition point.** The number of elements with a property, where these come first. -/
def partitionPoint (p : Nat → Bool) (xs : Array Nat) : Nat :=
  bisect (fun i => xs[i]?.any p) 0 xs.size

/-- The index of the line of an offset in a table of lines. -/
def lineIndex? (starts : Array Nat) (offset : Nat) : Option Nat :=
  if starts.isEmpty then none else some (partitionPoint (· ≤ offset) starts - 1)

theorem length_startsBehind (offset : Nat) (cs : List Char) :
    (startsBehind offset cs).length = newlines cs := by
  induction cs generalizing offset with
  | nil => rfl
  | cons c cs ih =>
    rw [startsBehind, newlines_cons, ← ih (offset + c.utf8Size)]
    split <;> rfl

/-- The number of lines is one more than that of newlines. -/
theorem size_lineStarts (cs : List Char) : (lineStarts cs).size = 1 + newlines cs := by
  rw [lineStarts, List.size_toArray, List.length_cons, length_startsBehind, Nat.add_comm]

end Text

/-- **Source.** A named text. -/
structure Source where
  name : String
  text : String
deriving DecidableEq

namespace Source

/-- The characters of the text. -/
def chars (s : Source) : List Char :=
  s.text.toList

/-- The offsets at which lines begin. -/
def lineStarts (s : Source) : Array Nat :=
  Text.lineStarts s.chars

/-- The number of lines. -/
def lineCount (s : Source) : Nat :=
  s.lineStarts.size

/-- **Text of a span**, if its ends are in order and lie between characters. -/
def spanText? (s : Source) (span : Span) : Option (List Char) :=
  if span.hi < span.lo then none
  else (Text.dropBytes? span.lo s.chars).bind (Text.takeBytes? span.length)

/-- **Position.** Line and column of a byte offset; `none` inside a character or beyond the end. -/
def position? (s : Source) (offset : Nat) : Option (Nat × Nat) :=
  if Text.byteSize s.chars < offset then none
  else do
    let index ← Text.lineIndex? s.lineStarts offset
    let start ← s.lineStarts[index]?
    let before ← s.spanText? ⟨start, offset⟩
    some (index + 1, before.length + 1)

/-- **Span of a line**, without its line end. Lines are counted from one. -/
def lineSpan? (s : Source) (line : Nat) : Option Span :=
  if line = 0 ∨ s.lineCount < line then none
  else do
    let start ← s.lineStarts[line - 1]?
    let stop := s.lineStarts[line]?.getD (Text.byteSize s.chars)
    let text ← s.spanText? ⟨start, stop⟩
    some ⟨start, start + Text.byteSize (Text.dropLineEnd text)⟩

/-- The text of a line as a string. -/
def lineText? (s : Source) (line : Nat) : Option String := do
  let span ← s.lineSpan? line
  let cs ← s.spanText? span
  some (String.ofList cs)

end Source

end LiquidTemplate
