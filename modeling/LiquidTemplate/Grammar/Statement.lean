import LiquidTemplate.Grammar.Tags
import LiquidTemplate.Token.Template

/-!
# Statements and the closed grammar

* `Grammar.parseStatement`: the statement of any tag.
* `Grammar.below`: the grammar for tokens of less than a given weight.
* `Environment.grammar`: the grammar of an environment.
* `Environment.parseTemplate`: the statements of a whole template.
* `Environment.parseLine`: the expression of a text that is no template.
* `parseStream_eq_ok`, `parseTemplate_eq_ok`: when a template is read.
-/

namespace LiquidTemplate

open LiquidTemplate.Parser

namespace Grammar

/-- The parser of a tag, whose name is the current token: that of every environment, else that of an
extension. -/
def tag? (env : Environment) (g : Grammar) (tag : String) : Option (Parser Expansion) :=
  match builtin? g tag with
  | some p => some (Expansion.single <$> p)
  | none => (env.extension? tag).map fun e => e.parse g

/-- **Statement** of a tag, from its name on. -/
def parseStatement (env : Environment) (g : Grammar) : Parser Expansion := do
  let t ← current
  match t.name? with
  | none => failAt .missingTagName t.line
  | some tag =>
    match tag? env g tag with
    | some p => inTag tag p
    | none => failUnknownTag tag t.line

/-- Runs a parser only where less than `bound` is left to read. -/
def guarded {α : Type} (bound : Nat) (p : (s : ParserState) → s.weight < bound →
    EStateM.Result SyntaxError ParserState α) : Parser α := fun s =>
  if h : s.weight < bound then p s h else fail .nestedTooDeep s

/-- **Bounded grammar.** It reads where less than `bound` is left. Every production consumes tokens
before it refers to another one through the grammar, so that each reference meets a smaller
bound. -/
def below (env : Environment) (bound : Nat) : Grammar :=
  { expression conditional filters := guarded bound fun s _ =>
      parseExpression (below env s.weight) conditional filters s
    negation filters := guarded bound fun s _ => parseNegation (below env s.weight) filters s
    signed := guarded bound fun s _ => parseSigned (below env s.weight) false s
    group := guarded bound fun s _ =>
      parseTuple (below env s.weight) (.expression true) [] true s
    statement := guarded bound fun s _ => parseStatement env (below env s.weight) s
    branch line tag := guarded bound fun s _ =>
      parseBranch (below env s.weight) line tag false s }
termination_by bound

/-! ### The productions of the bounded grammar -/

theorem below_expression (env : Environment) (n : Nat) (conditional filters : Bool) :
    (below env n).expression conditional filters =
      guarded n fun s _ => parseExpression (below env s.weight) conditional filters s := by
  rw [below]

theorem below_negation (env : Environment) (n : Nat) (filters : Bool) :
    (below env n).negation filters =
      guarded n fun s _ => parseNegation (below env s.weight) filters s := by
  rw [below]

theorem below_signed (env : Environment) (n : Nat) :
    (below env n).signed = guarded n fun s _ => parseSigned (below env s.weight) false s := by
  rw [below]

theorem below_group (env : Environment) (n : Nat) :
    (below env n).group =
      guarded n fun s _ => parseTuple (below env s.weight) (.expression true) [] true s := by
  rw [below]

theorem below_statement (env : Environment) (n : Nat) :
    (below env n).statement =
      guarded n fun s _ => parseStatement env (below env s.weight) s := by
  rw [below]

theorem below_branch (env : Environment) (n line : Nat) (tag : String) :
    (below env n).branch line tag =
      guarded n fun s _ => parseBranch (below env s.weight) line tag false s := by
  rw [below]

end Grammar

namespace Environment

/-- **Grammar of an environment.** -/
def grammar (env : Environment) : Grammar where
  expression conditional filters := fun s =>
    (Grammar.below env s.weight).parseExpression conditional filters s
  negation filters := fun s => (Grammar.below env s.weight).parseNegation filters s
  signed := fun s => (Grammar.below env s.weight).parseSigned false s
  group := fun s => (Grammar.below env s.weight).parseTuple (.expression true) [] true s
  statement := fun s => (Grammar.below env s.weight).parseStatement env s
  branch line tag := fun s => (Grammar.below env s.weight).parseBranch line tag false s

/-- The statements of all tokens of a stream. -/
def parseStream (env : Environment) (stream : TokenStream) : Except SyntaxError (List Stmt) :=
  match env.grammar.parseBody none { stream } with
  | .ok body _ => .ok body
  | .error e _ => .error e

/-- **Template**: the statements of a text. -/
def parseTemplate (env : Environment) (source : String) (name filename : Option String) :
    Except SyntaxError (List Stmt) := do
  env.parseStream (← TokenStream.ofTemplate env.delimiters source name filename)

/-- **Expression of a text** that holds nothing else; `name` is what its errors name. -/
def parseLine (env : Environment) (text name : String) : Except SyntaxError Expr := do
  let tokens ← Token.ofExpression text 1 0
  let (e, _) ← runOn (.ofTokens tokens name none) env.grammar.parseWhole
  return e

end Environment

/-! ### From the stream and from the text -/

variable {env : Environment} {source : String} {body : List Stmt}

theorem parseStream_eq_ok {stream : TokenStream} :
    env.parseStream stream = .ok body ↔ ∃ t, env.grammar.parseBody none { stream } = .ok body t := by
  unfold Environment.parseStream
  cases env.grammar.parseBody none { stream } with
  | ok ss t =>
    constructor
    · intro h
      rw [Except.ok.inj h]
      exact ⟨t, rfl⟩
    · rintro ⟨u, h⟩
      rw [(EStateM.Result.ok.inj h).1]
  | error e t =>
    constructor
    · intro h
      cases h
    · rintro ⟨u, h⟩
      cases h

/-- Parsing a template is parsing its tokens. -/
theorem parseTemplate_eq (name filename : Option String) {tokens : List Token}
    (htokens : Token.ofTemplate env.delimiters source = .ok tokens) :
    env.parseTemplate source name filename = env.parseStream (.ofTokens tokens name filename) := by
  unfold Environment.parseTemplate TokenStream.ofTemplate
  rw [htokens]
  rfl

theorem parseTemplate_eq_ok {name filename : Option String} :
    env.parseTemplate source name filename = .ok body ↔
      ∃ tokens, Token.ofTemplate env.delimiters source = .ok tokens ∧
        env.parseStream (.ofTokens tokens name filename) = .ok body := by
  cases htokens : Token.ofTemplate env.delimiters source with
  | error e =>
    have hfails : env.parseTemplate source name filename = .error (e.inTemplate name filename) := by
      unfold Environment.parseTemplate TokenStream.ofTemplate
      rw [htokens]
      rfl
    rw [hfails]
    constructor
    · intro h
      cases h
    · rintro ⟨_, h, -⟩
      cases h
  | ok tokens =>
    rw [parseTemplate_eq name filename htokens]
    constructor
    · exact fun h => ⟨tokens, rfl, h⟩
    · rintro ⟨_, h, hbody⟩
      cases h
      exact hbody

end LiquidTemplate
