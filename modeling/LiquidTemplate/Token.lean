import LiquidTemplate.Source

/-!
# Tokens

* `Symbol`: operators, punctuation and brackets, each with its spelling.
* `Mark`: the beginnings and ends of tags, and the end of the template.
* `Token.Kind`: a token without its place; `TokenType`: its class without its data.
* `Token`: a token with its line and span.
* `TokenRule`: what a token is tested against: a type, or a name with a given text.
-/

namespace LiquidTemplate

/-- **Symbols** of expressions. -/
inductive Symbol where
  | add | sub | mul | div | floorDiv | mod | pow
  | tilde | pipe | dot | comma | colon | semicolon | assign
  | eq | ne | lt | ltEq | gt | gtEq
  | lParen | rParen | lBracket | rBracket | lBrace | rBrace
deriving DecidableEq, Repr

/-- The spelling of a symbol. -/
def Symbol.spelling : Symbol → String
  | add => "+"
  | sub => "-"
  | mul => "*"
  | div => "/"
  | floorDiv => "//"
  | mod => "%"
  | pow => "**"
  | tilde => "~"
  | pipe => "|"
  | dot => "."
  | comma => ","
  | colon => ":"
  | semicolon => ";"
  | assign => "="
  | eq => "=="
  | ne => "!="
  | lt => "<"
  | ltEq => "<="
  | gt => ">"
  | gtEq => ">="
  | lParen => "("
  | rParen => ")"
  | lBracket => "["
  | rBracket => "]"
  | lBrace => "\x7b"
  | rBrace => "\x7d"

/-- The label of a symbol in listings. -/
def Symbol.label : Symbol → String
  | add => "Add"
  | sub => "Sub"
  | mul => "Mul"
  | div => "Div"
  | floorDiv => "FloorDiv"
  | mod => "Mod"
  | pow => "Pow"
  | tilde => "Tilde"
  | pipe => "Pipe"
  | dot => "Dot"
  | comma => "Comma"
  | colon => "Colon"
  | semicolon => "Semicolon"
  | assign => "Assign"
  | eq => "Eq"
  | ne => "Ne"
  | lt => "Lt"
  | ltEq => "LtEq"
  | gt => "Gt"
  | gtEq => "GtEq"
  | lParen => "LParen"
  | rParen => "RParen"
  | lBracket => "LBracket"
  | rBracket => "RBracket"
  | lBrace => "LBrace"
  | rBrace => "RBrace"

/-- **Marks** around tags, and the end of the template. -/
inductive Mark where
  | variableBegin | variableEnd | blockBegin | blockEnd | endOfTemplate
deriving DecidableEq, Repr

/-- What a mark is called in messages. -/
def Mark.describe : Mark → String
  | variableBegin => "begin of print statement"
  | variableEnd => "end of print statement"
  | blockBegin => "begin of statement block"
  | blockEnd => "end of statement block"
  | endOfTemplate => "end of template"

/-- The label of a mark in listings. -/
def Mark.label : Mark → String
  | variableBegin => "VariableBegin"
  | variableEnd => "VariableEnd"
  | blockBegin => "BlockBegin"
  | blockEnd => "BlockEnd"
  | endOfTemplate => "Eof"

/-- **Class of a token**, without its data. -/
inductive TokenType where
  | data | name | string | integer | float | range
  | symbol (s : Symbol)
  | mark (m : Mark)
deriving DecidableEq, Repr

/-- What a class of tokens is called in messages. -/
def TokenType.describe : TokenType → String
  | data => "template data / text"
  | name => "name"
  | string => "string"
  | integer => "integer"
  | float => "float"
  | range => "sequence"
  | symbol s => s.spelling
  | mark m => m.describe

/-- The label of a class of tokens in listings. -/
def TokenType.label : TokenType → String
  | data => "Data"
  | name => "Name"
  | string => "String"
  | integer => "Integer"
  | float => "Float"
  | range => "Sequence"
  | symbol s => s.label
  | mark m => m.label

/-- **A token without its place.** -/
inductive Token.Kind where
  /-- Text outside of tags. -/
  | data (text : String)
  | name (text : String)
  | string (text : String)
  | integer (value : Int64)
  | float (value : Float)
  /-- A range literal with the texts of its bounds. -/
  | range (start stop : String)
  | symbol (s : Symbol)
  | mark (m : Mark)

/-- The class of a kind. -/
def Token.Kind.type : Token.Kind → TokenType
  | data _ => .data
  | name _ => .name
  | string _ => .string
  | integer _ => .integer
  | float _ => .float
  | range .. => .range
  | symbol s => .symbol s
  | mark m => .mark m

/-- **Token.** -/
structure Token where
  kind : Token.Kind
  line : Nat
  span : Span

/-- **Rule for a token**: a class, or a name with a given text. -/
inductive TokenRule where
  | type (t : TokenType)
  | name (text : String)
deriving DecidableEq

/-- What a rule is called in messages. -/
def TokenRule.describe : TokenRule → String
  | type t => t.describe
  | name text => text

namespace Token

/-- The class of a token. -/
def type (t : Token) : TokenType :=
  t.kind.type

/-- The text of a name. -/
def name? (t : Token) : Option String :=
  match t.kind with
  | .name text => some text
  | _ => none

/-- The text of a name; empty for other tokens. -/
def nameText (t : Token) : String :=
  t.name?.getD ""

/-- Whether the token is a name with this text. -/
def isName (t : Token) (text : String) : Bool :=
  t.name? == some text

/-- Whether the token is this symbol. -/
def isSymbol (t : Token) (s : Symbol) : Bool :=
  t.type == .symbol s

/-- Whether the token is this mark. -/
def isMark (t : Token) (m : Mark) : Bool :=
  t.type == .mark m

/-- Whether the token is the end of the template. -/
def isEnd (t : Token) : Bool :=
  t.isMark .endOfTemplate

/-- **Test** of a token against a rule. -/
def fits (t : Token) : TokenRule → Bool
  | .type expected => t.type == expected
  | .name text => t.isName text

/-- Test of a token against several rules. -/
def fitsAny (t : Token) (rules : List TokenRule) : Bool :=
  rules.any t.fits

/-- What a token is called in messages: a name by its text, any other by its class. -/
def describe (t : Token) : String :=
  t.name?.getD t.type.describe

/-! ### What the tests say about the kind -/

theorem name?_eq_some_iff {t : Token} {text : String} :
    t.name? = some text ↔ t.kind = .name text := by
  obtain ⟨k, line, span⟩ := t
  cases k <;> simp [name?]

theorem isName_iff {t : Token} {text : String} : t.isName text = true ↔ t.kind = .name text := by
  rw [isName, beq_iff_eq, name?_eq_some_iff]

theorem isSymbol_iff {t : Token} {s : Symbol} : t.isSymbol s = true ↔ t.kind = .symbol s := by
  obtain ⟨k, line, span⟩ := t
  cases k <;> simp [isSymbol, type, Kind.type]

theorem isMark_iff {t : Token} {m : Mark} : t.isMark m = true ↔ t.kind = .mark m := by
  obtain ⟨k, line, span⟩ := t
  cases k <;> simp [isMark, type, Kind.type]

theorem isEnd_iff {t : Token} : t.isEnd = true ↔ t.kind = .mark .endOfTemplate :=
  isMark_iff

end Token

end LiquidTemplate
