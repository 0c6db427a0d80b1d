import LiquidTemplate.Delimiters
import LiquidTemplate.Text.Search
import LiquidTemplate.Token.Stream
import LiquidTemplate.Token.Tag

/-!
# Tokens of a template

A template is text with tags in it. Text becomes data tokens; comments disappear; the inside of a
raw block is text; every other tag gives its tokens between two marks. A dash next to a delimiter
strips the blanks of the text on that side.

* `Opened`, `findOpening?`: the first opening delimiter of a text.
* `rawBegin?`, `rawEnd?`: the tags around a raw block.
* `dataToken`: a stretch of text.
* `Token.ofTemplate`: all tokens of a template.
* `TokenStream.ofTemplate`: the same as a stream.
-/

namespace LiquidTemplate

open Text

/-! ### Opening delimiters -/

/-- **An opening delimiter** that was found: what stands before it, its text and what follows. -/
structure Opened where
  before : List Char
  opening : Opening
  delimiter : List Char
  after : List Char

/-- **Opening delimiters** with their kinds, the longer ones first; of equal lengths the order is
that of variables, blocks and comments. -/
def Delimiters.openings (d : Delimiters) : List (Opening × List Char) :=
  ([Opening.variable, .block, .comment].map fun o => (o, (d.start o).toList)).mergeSort fun a b =>
    byteSize b.2 ≤ byteSize a.2

/-- The first of the delimiters that stands at the beginning of a text. -/
def openingAt? (openings : List (Opening × List Char)) (cs : List Char) : Option Opened :=
  openings.findSome? fun (opening, delimiter) =>
    (after? delimiter cs).map fun rest => ⟨[], opening, delimiter, rest⟩

/-- **The first place** of a text that is not empty where one of the delimiters stands. -/
def findOpening? (openings : List (Opening × List Char)) : List Char → Option Opened
  | [] => none
  | c :: cs =>
    match openingAt? openings (c :: cs) with
    | some found => some found
    | none => (findOpening? openings cs).map fun found => { found with before := c :: found.before }

/-! ### Raw blocks -/

/-- An optional dash and a closing delimiter; the flag tells whether the dash is there. -/
def dashThen? (delimiter cs : List Char) : Option (Bool × List Char) :=
  match (after? ['-'] cs).bind (after? delimiter) with
  | some rest => some (true, rest)
  | none => (after? delimiter cs).map fun rest => (false, rest)

/-- Blanks, an optional dash and a closing delimiter. As many blanks as possible are taken, and
fewer only where the delimiter itself begins with blanks. -/
def blanksThen? (delimiter : List Char) : List Char → Option (Bool × List Char)
  | [] => dashThen? delimiter []
  | c :: cs =>
    (if isBlank c then blanksThen? delimiter cs else none) <|> dashThen? delimiter (c :: cs)

/-- The text without a dash at its beginning, and whether there was one. -/
def optionalDash : List Char → Bool × List Char
  | '-' :: cs => (true, cs)
  | cs => (false, cs)

/-- **Tag of a raw block** after its opening delimiter: the keyword between optional dashes and
blanks. The flags tell which dashes are there. -/
def rawTag? (keyword : String) (blockEnd cs : List Char) : Option (Bool × Bool × List Char) := do
  let (before, cs) := optionalDash cs
  let cs ← after? keyword.toList (trimStart cs)
  let (behind, rest) ← blanksThen? blockEnd cs
  pure (before, behind, rest)

/-- **End of a raw block**: the text before it, its two flags and what follows. -/
structure RawEnd where
  before : List Char
  dashBefore : Bool
  dashBehind : Bool
  after : List Char

/-- The end of a raw block at the beginning of `cs`. -/
def rawEndAt? (d : Delimiters) (cs : List Char) : Option RawEnd := do
  let cs ← after? d.blockStart.toList cs
  let (before, behind, rest) ← rawTag? "endraw" d.blockEnd.toList cs
  pure ⟨[], before, behind, rest⟩

/-- **The first end of a raw block** in a text. -/
def rawEnd? (d : Delimiters) : List Char → Option RawEnd
  | [] => rawEndAt? d []
  | c :: cs =>
    match rawEndAt? d (c :: cs) with
    | some found => some found
    | none => (rawEnd? d cs).map fun found => { found with before := c :: found.before }

/-! ### Text and tags -/

/-- The part of `cs` that is before `rest`, which is what is left of it. -/
def consumed (cs rest : List Char) : List Char :=
  cs.take (cs.length - rest.length)

/-- **Data token** of a stretch of text at the cursor, stripped of blanks on the sides that are
asked for; none if nothing is left. -/
def dataToken (c : Cursor) (text : List Char) (stripStart stripEnd : Bool) : List Token :=
  let kept := if stripStart then trimStart text else text
  let start := c.past (consumed text kept) kept
  let shown := if stripEnd then trimEnd kept else kept
  if shown.isEmpty then []
  else [start.tokenTo (.data (String.ofList shown)) (start.past shown [])]

/-- **What one tag gives**: its tokens, the cursor behind it, and whether the text that follows is
stripped at its start. -/
structure TagResult where
  tokens : List Token
  after : Cursor
  strip : Bool

/-- A comment, from its opening delimiter on. -/
def readComment (d : Delimiters) (delimiter : List Char) (c : Cursor) (after : List Char) :
    Except SyntaxError TagResult :=
  match cut? d.commentEnd.toList after with
  | none => .error (c.error .missingCommentEnd)
  | some (inside, rest) =>
    .ok ⟨[], c.past (delimiter ++ inside ++ d.commentEnd.toList) rest, inside.getLast? == some '-'⟩

/-- A raw block, from behind its first tag, which stands at a line. -/
def readRaw (d : Delimiters) (line : Nat) (strip : Bool) (c : Cursor) :
    Except SyntaxError TagResult :=
  match rawEnd? d c.rest with
  | none => .error (c.errorAt .missingRawEnd line)
  | some found =>
    let data := dataToken c found.before strip found.dashBefore
    .ok ⟨data, c.past (consumed c.rest found.after) found.after, found.dashBehind⟩

/-- The cursor behind a newline at its place. -/
def Cursor.skipNewline (c : Cursor) : Cursor :=
  match after? ['\r', '\n'] c.rest with
  | some rest => c.past ['\r', '\n'] rest
  | none =>
    match after? ['\n'] c.rest with
    | some rest => c.past ['\n'] rest
    | none => c

/-- The tokens of a tag between its marks, from its opening delimiter on. A dash behind the
delimiter belongs to it. -/
def readMarked (opening closing : Mark) (closer delimiter : List Char) (c : Cursor)
    (after : List Char) : Except SyntaxError TagResult := do
  let inside := c.past delimiter after
  let (dashed, rest) := optionalDash after
  let start := if dashed then inside.past ['-'] rest else inside
  let tag ← TagTokens.read (some ⟨closer, closing⟩) (some (.mark opening)) [] start
  pure ⟨c.tokenTo (.mark opening) inside :: tag.tokens, tag.after, tag.dashed⟩

/-- A block tag, or a raw block, from its opening delimiter on. -/
def readBlock (d : Delimiters) (delimiter : List Char) (c : Cursor) (after : List Char) :
    Except SyntaxError TagResult :=
  match rawTag? "raw" d.blockEnd.toList after with
  | some (_, strip, rest) =>
    let start := (c.past delimiter after).past (consumed after rest) rest
    readRaw d c.line strip start
  | none => do
    let tag ← readMarked .blockBegin .blockEnd d.blockEnd.toList delimiter c after
    pure (if d.trimBlocks && !tag.strip then { tag with after := tag.after.skipNewline } else tag)

/-- **One tag** at the cursor, whose opening delimiter was found. -/
def readTag (d : Delimiters) (found : Opened) (c : Cursor) : Except SyntaxError TagResult :=
  match found.opening with
  | .comment => readComment d found.delimiter c found.after
  | .block => readBlock d found.delimiter c found.after
  | .variable =>
    readMarked .variableBegin .variableEnd d.variableEnd.toList found.delimiter c found.after

/-- The end of the template at the cursor. -/
def Cursor.endToken (c : Cursor) : Token :=
  c.tokenTo (.mark .endOfTemplate) c

/-- **Tokens of a text with tags** from the cursor on. A tag without any character, which only an
empty opening delimiter can give, would be read for ever: it is an error. -/
def templateTokens (d : Delimiters) (strip : Bool) (c : Cursor) : Except SyntaxError (List Token) :=
  if c.rest.isEmpty then .ok [c.endToken]
  else
    match findOpening? d.openings c.rest with
    | none => .ok (dataToken c c.rest strip false ++ [(c.past c.rest []).endToken])
    | some found =>
      let data := dataToken c found.before strip (found.after.head? == some '-')
      let start := c.past found.before (found.delimiter ++ found.after)
      match readTag d found start with
      | .error e => .error e
      | .ok tag =>
        if tag.after.rest.length < c.rest.length then
          (templateTokens d tag.strip tag.after).map fun ts => data ++ tag.tokens ++ ts
        else .error (tag.after.error .nestedTooDeep)
termination_by c.rest.length

/-- The text without the newline at its end. -/
def dropFinalNewline (cs : List Char) : List Char :=
  match cs.reverse with
  | '\n' :: '\r' :: rest => rest.reverse
  | '\n' :: rest => rest.reverse
  | _ => cs

/-- The characters of a template that are read. -/
def Delimiters.textOf (d : Delimiters) (source : String) : List Char :=
  if d.keepTrailingNewline then source.toList else dropFinalNewline source.toList

/-- **Tokens of a template**, the last of which is its end. -/
def Token.ofTemplate (d : Delimiters) (source : String) : Except SyntaxError (List Token) :=
  templateTokens d false ⟨d.textOf source, 0, 1⟩

/-- **Token stream of a template.** -/
def TokenStream.ofTemplate (d : Delimiters) (source : String) (name filename : Option String) :
    Except SyntaxError TokenStream :=
  match Token.ofTemplate d source with
  | .ok tokens => .ok (.ofTokens tokens name filename)
  | .error e => .error (e.inTemplate name filename)

end LiquidTemplate
