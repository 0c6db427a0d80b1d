import LiquidTemplate.Extension.Case
import LiquidTemplate.Grammar.Loop
import LiquidTemplate.Grammar.Tags

/-!
# Rounds

Each repetition of the grammar by the name of its round. A round gives either what the next one
begins with or the result, and a repetition goes on as long as there is a next one.

* `Parser.Repeats`: a parser that comes to a repetition with a given round.
* `Grammar.Loop`: all repetitions of a grammar.
* `Grammar.Loop.repeats`: the productions run through these rounds.
-/

namespace LiquidTemplate

namespace Parser

variable {α β γ δ : Type}

/-- **A repetition inside of a parser**: it is all of it, or comes behind a first part, or before end
tags. -/
inductive Repeats (round : α → Parser (α ⊕ β)) : {γ : Type} → Parser γ → Prop where
  | loop (x : α) : Repeats round (repeatFrom round x)
  | behind {γ δ : Type} {p : Parser γ} {f : γ → Parser δ} (h : ∀ x, Repeats round (f x)) :
      Repeats round (p >>= f)
  | awaiting {γ : Type} {p : Parser γ} {ends : List TokenRule} (h : Repeats round p) :
      Repeats round (awaiting ends p)

end Parser

namespace Grammar

open LiquidTemplate.Parser

/-- **The repetitions of a grammar**, each with its round. -/
inductive Loop (g : Grammar) : {α β γ : Type} → Parser γ → (α → Parser (α ⊕ β)) → Prop where
  | arguments (form : ArgumentForm) (line : Nat) :
      Loop g (parseArgumentList g form line) (parseNextArgument g form line)
  | filters (node : Option Expr) (bare : Bool) :
      Loop g (parseFilters g node bare) (parseNextFilter g)
  | dottedName (first : String) : Loop g (parseDottedName first) parseNextDot
  | strings (first : String) : Loop g (parseString first) parseNextString
  | list : Loop g (parseItems .rBracket (g.expression true true))
      (parseNextItem .rBracket (g.expression true true))
  | dict : Loop g (parseItems .rBrace (parseEntry g)) (parseNextItem .rBrace (parseEntry g))
  | subscripts : Loop g (parseSubscripts g) (parseNextSubscript g)
  | members (node : Expr) : Loop g (parsePostfix g node) (parseNextPostfix g)
  | trailers (node : Expr) : Loop g (parseTrailers g node) (parseNextTrailer g)
  | power (filters : Bool) : Loop g (parsePower g filters)
      (parseNextOperator (parseSigned g filters) fun t => (BinaryOp.power? t).map Expr.binary)
  | product (filters : Bool) : Loop g (parseProduct g filters)
      (parseNextOperator (parsePower g filters) fun t => (BinaryOp.multiplicative? t).map Expr.binary)
  | concat (filters : Bool) : Loop g (parseConcatNodes g filters) (parseNextConcat g filters)
  | sum (filters : Bool) : Loop g (parseSum g filters)
      (parseNextOperator (parseConcat g filters) fun t => (BinaryOp.additive? t).map Expr.binary)
  | comparisons (filters : Bool) (line : Nat) :
      Loop g (parseOperands g filters line) (parseNextOperand g filters)
  | conjunction (filters : Bool) : Loop g (parseAnd g filters)
      (parseNextOperator (parseNegation g filters) fun t =>
        if t.isName "and" then some Expr.and else none)
  | disjunction (filters : Bool) : Loop g (parseOr g filters)
      (parseNextOperator (parseAnd g filters) fun t => if t.isName "or" then some Expr.or else none)
  | conditional (filters : Bool) : Loop g (parseConditional g filters) (parseNextCondition g filters)
  | tuple (item : TupleItem) (ends : List TokenRule) (line : Nat) :
      Loop g (parseTupleItems g item ends line) (parseNextTupleItem g item ends)
  | body (ends : Option (List TokenRule)) :
      Loop g (parseBody g ends) (parseBodyPart g (ends.getD []))
  | modifiers : Loop g (parseModifiers g) (parseNextModifier g)
  | printed : Loop g (parsePrinted g) (parseNextPrinted g)
  | bindings : Loop g (parseBindings g) (parseNextBinding g)
  | imports : Loop g parseImportNames parseNextImport
  | parameters : Loop g (parseParameters g) (parseNextParameter g)
  | whenValues : Loop g (parseWhenValues g) (parseNextWhenValue g)
  | cases : Loop g (parseCaseBranches g) (fun read => parseNextBranch g read.1 read.2)

/-- **The productions run through these rounds.** -/
theorem Loop.repeats {g : Grammar} {α β γ : Type} {p : Parser γ} {round : α → Parser (α ⊕ β)}
    (h : g.Loop p round) : Repeats round p := by
  cases h with
  | power | product | sum | conjunction | disjunction =>
    exact .behind fun _ => .behind fun _ => .loop _
  | concat => exact .behind fun _ => .loop _
  | conditional => exact .behind fun _ => .behind fun _ => .loop _
  | body ends =>
    cases ends with
    | none => exact .loop _
    | some ends => exact .awaiting (.loop _)
  | _ => exact .loop _

end Grammar

end LiquidTemplate
