import LiquidTemplate.Proofs.Cases.Names

/-!
# Made-up names in templates and in sessions

The count of the names made up so far only grows. So no name is given twice, neither in one template nor
over a whole session with a parser, whatever fails on the way.

* `Environment.Call`, `Environment.Session`: calls to a parser, one after the other.
* `Environment.Call.numbered`, `Environment.Session.numbered`: the names that they give.
* `Hygienic`: statements whose made-up names are told apart from each other and from all other names.
* `made_up_names`: templates are hygienic, and sessions give every name once.
-/

namespace LiquidTemplate

open LiquidTemplate.Parser LiquidTemplate.Grammar

variable {env : Environment} {s t u : ParserState} {names more : List String}

/-! ### Sessions -/

/-- **A call to a parser**, with the made-up names that come of it: the one that is asked for, or those
that the statements read assign to. Other calls give none, and they may fail. Between calls the stream
may become any other. -/
inductive Environment.Call (env : Environment) (s : ParserState) : List String → ParserState → Prop where
  | freshName {name : String} {line place : Nat} {t : ParserState}
      (h : Parser.freshName line s = .ok (.internalName name place) t) : Call env s [name] t
  | statement {x : Expansion} {t : ParserState} (h : parseStatement env env.grammar s = .ok x t) :
      Call env s (madeUpTargets x.toList) t
  | statements {ends : List TokenRule} {consume : Bool} {body : List Stmt} {t : ParserState}
      (h : parseStatements env.grammar ends consume s = .ok body t) :
      Call env s (madeUpTargets body) t
  | body {ends : Option (List TokenRule)} {body : List Stmt} {t : ParserState}
      (h : parseBody env.grammar ends s = .ok body t) : Call env s (madeUpTargets body) t
  | other {α : Type} {p : Parser α} (h : env.Operation p) : Call env s [] (p.final s)
  | stream (stream : TokenStream) : Call env s [] { s with stream }

/-- **Calls to a parser** one after the other, with the made-up names in their order. -/
inductive Environment.Session (env : Environment) : ParserState → List String → ParserState → Prop where
  | nil {s : ParserState} : Session env s [] s
  | call {s t u : ParserState} {names more : List String} (h : env.Call s names t)
      (rest : Session env t more u) : Session env s (names ++ more) u

theorem Lowers.numbered {tokens : List Token} {ss : List Stmt} (h : Lowers tokens s t ss) :
    s.madeUp ≤ t.madeUp ∧ Numbered s.madeUp t.madeUp (madeUpTargets ss) :=
  ⟨h.before.madeUp, h.lowered.numbered⟩

/-- **One call** gives names with numbers that were not reached before. -/
theorem Environment.Call.numbered (henv : ∀ x ∈ env.extensions, x.Known) (h : env.Call s names t) :
    s.madeUp ≤ t.madeUp ∧ Numbered s.madeUp t.madeUp names := by
  have hg := lowering_grammar henv s.stream.tokens
  have hs := List.suffix_refl s.stream.tokens
  cases h with
  | freshName h =>
    obtain ⟨hname, rfl⟩ := EStateM.Result.ok.inj h
    obtain rfl := (Expr.internalName.inj hname).1
    exact ⟨Nat.le_succ _, .next⟩
  | statement h => exact (lowers_statement henv hg hs h).numbered
  | statements h => exact (lowers_statements hg hs h).numbered
  | body h => exact (lowers_body hg hs h).numbered
  | other h => exact ⟨h.madeUp_le henv s, .nil⟩
  | stream => exact ⟨Nat.le_refl _, .nil⟩

/-- **A whole session.** -/
theorem Environment.Session.numbered (henv : ∀ x ∈ env.extensions, x.Known)
    (h : env.Session s names t) : s.madeUp ≤ t.madeUp ∧ Numbered s.madeUp t.madeUp names := by
  induction h with
  | nil => exact ⟨Nat.le_refl _, .nil⟩
  | call hcall _ ih =>
    obtain ⟨hle, hnames⟩ := hcall.numbered henv
    obtain ⟨hle', hmore⟩ := ih
    exact ⟨Nat.le_trans hle hle', hnames.append hmore hle hle'⟩

/-! ### Templates -/

/-- **Hygienic statements** with these made-up names. -/
structure Hygienic (names : List String) (body : List Stmt) : Prop where
  /-- The names are those of the case distinctions, whose comparisons mention no other. -/
  cased : Cased names body
  /-- No two case distinctions have the same name. -/
  nodup : names.Nodup
  /-- Every name is assigned to once, and no other made-up name is. -/
  targets : madeUpTargets body = names
  /-- There are no other made-up names. -/
  mem : ∀ text line, .expr (.internalName text line) ∈ walkAll body → text ∈ names
  /-- No other name is one of them. -/
  apart : ∀ text, NamedIn body text → text ∉ names

/-- **The statements of a template.** -/
theorem hygienic_of_template (henv : ∀ x ∈ env.extensions, x.Known) {source : String}
    {name filename : Option String} {body : List Stmt}
    (h : env.parseTemplate source name filename = .ok body) : ∃ names, Hygienic names body := by
  obtain ⟨tokens, n, htokens, hlowered⟩ := lowered_of_template henv h
  obtain ⟨names, hcased, hnumbered⟩ := hlowered.cased
  refine ⟨names, hcased, hnumbered.nodup, hcased.targets, fun _ _ => hcased.mem, ?_⟩
  intro text hnamed hmem
  obtain ⟨number, hnumber⟩ := hnumbered.exists_of_mem hmem
  exact (hlowered.spelled hnamed).ne_internalName htokens number hnumber

/-- **Made-up names.** In the tree of a template every case distinction assigns to a name of its own,
once, and its comparisons mention that name and no other. No name that the template spells is one of
them. Over any session with a parser, with calls that succeed and calls that fail, no name is given
twice. -/
theorem made_up_names (henv : ∀ x ∈ env.extensions, x.Known) :
    (∀ source name filename body, env.parseTemplate source name filename = .ok body →
      ∃ names, Hygienic names body) ∧
    ∀ s names t, env.Session s names t → names.Nodup :=
  ⟨fun _ _ _ _ h => hygienic_of_template henv h, fun _ _ _ h => (h.numbered henv).2.nodup⟩

/-- A case distinction, and a session that goes on after an error. -/
theorem made_up_names_case :
    let env : Environment := { extensions := [.case] }
    let text := "\x7b%case a%\x7d\x7b%when b%\x7d\x7b%endcase%\x7d"
    let test : Expr := .compare (.internalName "$fi1" 1) [⟨.eq, .name "b" .load 1⟩] 1
    let body : List Stmt :=
      [.assign (.internalName "$fi1" 1) (.name "a" .load 1) 1, .ifThen test [] [] 1]
    let start : ParserState := { stream := .ofTokens [] none none }
    (∀ x ∈ env.extensions, x.Known) ∧ env.parseTemplate text none none = .ok body ∧
      Hygienic ["$fi1"] body ∧
      ∃ t, env.Session start ["$fi1", "$fi2"] t ∧ ["$fi1", "$fi2"].Nodup := by
  intro env text test body start
  have hext : ∀ x ∈ env.extensions, x.Known := List.forall_mem_singleton.2 .case
  let tokens : List Token := [⟨.mark .blockBegin, 1, ⟨0, 2⟩⟩, ⟨.name "case", 1, ⟨2, 6⟩⟩,
    ⟨.name "a", 1, ⟨7, 8⟩⟩, ⟨.mark .blockEnd, 1, ⟨8, 10⟩⟩, ⟨.mark .blockBegin, 1, ⟨10, 12⟩⟩,
    ⟨.name "when", 1, ⟨12, 16⟩⟩, ⟨.name "b", 1, ⟨17, 18⟩⟩, ⟨.mark .blockEnd, 1, ⟨18, 20⟩⟩,
    ⟨.mark .blockBegin, 1, ⟨20, 22⟩⟩, ⟨.name "endcase", 1, ⟨22, 29⟩⟩, ⟨.mark .blockEnd, 1, ⟨29, 31⟩⟩,
    ⟨.mark .endOfTemplate, 1, ⟨31, 31⟩⟩]
  have htokens : Token.ofTemplate env.delimiters text = .ok tokens := by cbv
  have hstream : env.parseStream (.ofTokens tokens none none) = .ok body := by cbv
  have hparse := (parseTemplate_eq none none htokens).trans hstream
  have htargets : madeUpTargets body = ["$fi1"] := by
    simp [body, madeUpTargets_cons, Stmt.body, Node.madeUpTarget?]
  obtain ⟨htemplates, hsessions⟩ := made_up_names hext
  obtain ⟨names, hnames⟩ := htemplates text none none body hparse
  let once : ParserState := { start with madeUp := 1 }
  let twice : ParserState := { start with madeUp := 2 }
  have hfirst : freshName 1 start = .ok (.internalName "$fi1" 1) once := by cbv
  have hsecond : freshName 1 once = .ok (.internalName "$fi2" 1) twice := by cbv
  have hfail : env.Call once [] once := .other (.failure (α := Unit) .missingTagName 1)
  have hsession : env.Session start ["$fi1", "$fi2"] twice :=
    .call (.freshName hfirst) (.call hfail (.call (.freshName hsecond) .nil))
  exact ⟨hext, hparse, htargets ▸ hnames.targets ▸ hnames, twice, hsession,
    hsessions _ _ _ hsession⟩

end LiquidTemplate
