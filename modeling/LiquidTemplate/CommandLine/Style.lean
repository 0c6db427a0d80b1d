import LiquidTemplate.Diagnostic
import LiquidTemplate.Text.Quoted
import LiquidTemplate.Token

/-!
# Listings with and without colours

* `Color`: the colours of a terminal.
* `Style`: whether they are used.
* `Style.token`: a line about a token.
* `Style.diagnostic`: a diagnostic with its heading marked.
-/

namespace LiquidTemplate.CommandLine

/-- **Colour** of a text on a terminal. -/
inductive Color where
  | gray | red | yellow | blue | magenta | cyan | white
deriving DecidableEq

/-- The number of a colour. -/
def Color.code : Color → Nat
  | gray => 90
  | red => 91
  | yellow => 93
  | blue => 94
  | magenta => 95
  | cyan => 96
  | white => 97

/-- **Style** of the output. -/
structure Style where
  colored : Bool := false
deriving DecidableEq

/-- A sequence that sets an attribute of the terminal. -/
def setAttribute (code : Nat) : String :=
  "\x1b[" ++ toString code ++ "m"

namespace Style

/-- A text in a colour. -/
def paint (style : Style) (color : Color) (text : String) : String :=
  if style.colored then setAttribute color.code ++ text ++ setAttribute 39 else text

/-- A text in bold letters. -/
def bold (style : Style) (text : String) : String :=
  if style.colored then setAttribute 1 ++ text ++ setAttribute 0 else text

/-- The colour of a class of tokens. -/
def tokenColor : TokenType → Color
  | .data => .white
  | .name => .cyan
  | .string | .integer | .float => .yellow
  | .mark .endOfTemplate => .gray
  | .mark _ => .magenta
  | .range | .symbol _ => .blue

/-- What a listing shows of a token: its data, or else what messages call it. -/
def tokenText (t : Token) : String :=
  match t.kind with
  | .data text | .name text | .string text => Text.quoted text
  | .integer value => String.ofList (Number.intText value.toInt)
  | .float value => String.ofList (Number.plainFloat value)
  | .range start stop => "(" ++ start ++ ".." ++ stop ++ ")"
  | .symbol s => s.spelling
  | .mark m => m.describe

/-- **Line about a token**: its line, its class and its data. -/
def token (style : Style) (t : Token) : String :=
  style.paint .gray (Diagnostic.lineNumber 4 t.line) ++ " " ++
    style.paint (tokenColor t.type) t.type.label ++ " " ++ tokenText t ++ "\n"

/-- **Diagnostic** of an error with its heading marked. -/
def diagnostic (style : Style) (source : Source) (e : SyntaxError) : String :=
  style.bold (style.paint .red (Diagnostic.heading e)) ++ Diagnostic.body source e ++ "\n"

end Style

end LiquidTemplate.CommandLine
