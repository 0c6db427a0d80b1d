import LiquidTemplate.Proofs.Exchange.Grammars
import LiquidTemplate.Proofs.Forms.Layouts
import LiquidTemplate.Proofs.Progress.Routes

/-!
# The tokens of arguments

A parser of arguments consumes tokens that form them, and makes up no names.

* `of_current`, `of_step`, `of_skipIf`: the beginning of a run that succeeds.
* `ParserState.Took`: a run over tokens that form some pieces.
* `Grammar.Forming`: a grammar whose expressions are formed by what they consume.
* `took_argument`, `took_arguments`, `took_filters`, `took_call`: the productions.
-/

namespace LiquidTemplate

open LiquidTemplate.Parser LiquidTemplate.Grammar

variable {α β : Type} {g : Grammar} {s t u : ParserState} {x : α} {y : β} {e : Expr}
  {ps qs : List Piece} {line : Nat} {form : ArgumentForm}

/-! ### Runs that succeed -/

namespace Parser

/-- **A parser gives** a result, on the way from one state to another one. -/
def Gives (p : Parser α) (s : ParserState) (x : α) (t : ParserState) : Prop :=
  p s = .ok x t

theorem of_current {f : Token → Parser β} (h : (current >>= f) s = .ok y t) :
    f s.stream.current s = .ok y t :=
  h

theorem of_look {f : Token → Parser β} (h : (look >>= f) s = .ok y t) :
    f s.stepped.stream.current s = .ok y t := by
  have hlook : s.stream.look = s.stepped.stream.current := s.stream.look_eq_current_next
  rw [← hlook]
  exact h

theorem of_step {f : Unit → Parser β} (h : (step >>= f) s = .ok y t) : f () s.stepped = .ok y t :=
  h

theorem of_advance {f : Token → Parser β} (h : (advance >>= f) s = .ok y t) :
    f s.stream.current s.stepped = .ok y t :=
  h

theorem of_skipTwo {f : Unit → Parser β} (h : (skip 2 >>= f) s = .ok y t) :
    f () s.stepped.stepped = .ok y t :=
  h

theorem of_atSymbol {f : Bool → Parser β} {z : Symbol} (h : (atSymbol z >>= f) s = .ok y t) :
    f (s.stream.current.isSymbol z) s = .ok y t :=
  h

theorem of_atMark {f : Bool → Parser β} {m : Mark} (h : (atMark m >>= f) s = .ok y t) :
    f (s.stream.current.isMark m) s = .ok y t :=
  h

theorem of_pure {x y : α} (h : (pure x : Parser α) s = .ok y t) : y = x ∧ t = s := by
  obtain ⟨rfl, rfl⟩ := EStateM.Result.ok.inj h
  exact ⟨rfl, rfl⟩

theorem of_expect {rule : TokenRule} {f : Token → Parser β} (h : (expect rule >>= f) s = .ok y t) :
    s.stream.current.fits rule = true ∧ f s.stream.current s.stepped = .ok y t := by
  obtain ⟨tok, u, hu, h⟩ := bind_eq_ok.1 h
  obtain ⟨hfits, rfl, rfl⟩ := expect_eq_ok.1 hu
  exact ⟨hfits, h⟩

theorem of_skipIf {rule : TokenRule} {p q : Parser β}
    (h : (do if ← skipIf rule then p else q) s = .ok y t) :
    s.stream.current.fits rule = true ∧ p s.stepped = .ok y t ∨ q s = .ok y t := by
  obtain ⟨found, u, hu, hrest⟩ := bind_eq_ok.1 h
  cases found with
  | true =>
    obtain ⟨hfits, rfl⟩ := skipIf_eq_true.1 hu
    exact .inl ⟨hfits, hrest⟩
  | false =>
    obtain ⟨rfl, -⟩ := skipIf_eq_false.1 hu
    exact .inr hrest

theorem of_require {ok : Bool} {f : Unit → Parser β} (h : (require ok line >>= f) s = .ok y t) :
    f () s = .ok y t := by
  cases ok with
  | true => exact h
  | false => nomatch h

end Parser

/-! ### Taking pieces -/

namespace TokenRule

instance : Solid (.type .string) :=
  ⟨nofun⟩

instance : Solid (.type .integer) :=
  ⟨nofun⟩

instance : Solid (.type .float) :=
  ⟨nofun⟩

end TokenRule

namespace ParserState

/-- **A run over some pieces**: what it consumes forms them, and it makes up no names. -/
structure Took (s t : ParserState) (ps : List Piece) : Prop where
  forms : Forms s.stream.tokens t.stream.tokens ps
  madeUp : t.madeUp = s.madeUp

theorem Took.nil (s : ParserState) : s.Took s [] :=
  ⟨.nil, rfl⟩

theorem Took.append (h : s.Took t ps) (h' : t.Took u qs) : s.Took u (ps ++ qs) :=
  ⟨h.forms.append h'.forms, h'.madeUp.trans h.madeUp⟩

theorem Took.suffix (h : s.Took t ps) : t.stream.tokens <:+ s.stream.tokens :=
  h.forms.suffix

/-- What is left behind a token that is not the end. -/
theorem stepped_tokens (h : s.stream.current.isEnd = false) :
    s.stepped.stream.tokens = s.stream.later := by
  show s.stream.next.tokens = _
  rw [TokenStream.tokens_next, if_neg (s.stream.later_ne_nil h)]

/-- **A token** that fits. -/
theorem took_stepped {rule : TokenRule} [rule.Solid] (h : s.stream.current.fits rule = true) :
    s.Took s.stepped [.token rule] := by
  refine ⟨?_, rfl⟩
  rw [stepped_tokens (Token.isEnd_of_fits h)]
  exact .token h .nil

/-- A token that fits, and what is taken behind it. -/
theorem Took.behind {rule : TokenRule} [rule.Solid] (h : s.stepped.Took t ps)
    (hfits : s.stream.current.fits rule = true) : s.Took t (.token rule :: ps) :=
  (took_stepped hfits).append h

theorem Took.behindSymbol {x : Symbol} (h : s.stepped.Took t ps)
    (hx : s.stream.current.isSymbol x = true) : s.Took t (.symbol x :: ps) :=
  Took.behind h hx

theorem Took.behindWord {text : String} (h : s.stepped.Took t ps)
    (htext : s.stream.current.isName text = true) : s.Took t (.word text :: ps) :=
  Took.behind h htext

/-- Pieces, and a token that fits behind them. -/
theorem Took.closed {rule : TokenRule} [rule.Solid] (h : s.Took t ps)
    (hfits : t.stream.current.fits rule = true) : s.Took t.stepped (ps ++ [.token rule]) :=
  h.append (took_stepped hfits)

/-- **The line of the first token** of a run. -/
theorem lineIn_first (hend : s.stream.current.isEnd = false)
    (h : t.stream.tokens <:+ s.stepped.stream.tokens) :
    LineIn s.stream.tokens t.stream.tokens s.stream.current.line :=
  ⟨s.stream.current, s.stream.later, List.suffix_refl _, stepped_tokens hend ▸ h, rfl⟩

theorem Took.lineIn {x : Symbol} (h : s.stepped.Took t ps) (hx : s.stream.current.isSymbol x = true) :
    LineIn s.stream.tokens t.stream.tokens s.stream.current.line :=
  lineIn_first (Token.isEnd_of_isSymbol hx) h.suffix

theorem Took.lineIn_of_suffix (h : s.Took t ps) {l : Nat}
    (hline : LineIn t.stream.tokens u.stream.tokens l) :
    LineIn s.stream.tokens u.stream.tokens l :=
  hline.mono h.suffix (List.suffix_refl _)

/-- **An expression** that is laid out by what is taken. -/
theorem Took.expr (h : s.Took t ps) (hlayout : e.Layout ps)
    (hline : e.Lined s.stream.tokens t.stream.tokens) : s.Took t [.expr e] :=
  ⟨.expr hlayout hline h.forms .nil, h.madeUp⟩

theorem Took.exprIn (h : s.Took t ps) (hlayout : e.Layout ps)
    (hline : LineIn s.stream.tokens t.stream.tokens e.line) : s.Took t [.expr e] :=
  h.expr hlayout (.inside hline)

/-- **An expression between parentheses.** -/
theorem Took.parenthesized (hl : s.stream.current.isSymbol .lParen = true)
    (h : s.stepped.Took t [.expr e])
    (hr : t.stream.current.isSymbol .rParen = true) : s.Took t.stepped [.expr e] := by
  have hinner := h.forms
  rw [stepped_tokens (Token.isEnd_of_isSymbol hl)] at hinner
  refine ⟨?_, h.madeUp⟩
  rw [stepped_tokens (Token.isEnd_of_isSymbol hr)]
  exact .parentheses hl hr hinner .nil

end ParserState

open ParserState

/-- **Grammars whose expressions are formed** by the tokens that they consume. Nothing between
parentheses is the tuple without items. -/
structure Grammar.Forming (g : Grammar) : Prop where
  expression : ∀ conditional filters s e t, g.expression conditional filters s = .ok e t →
    s.Took t [.expr e]
  negation : ∀ filters s e t, g.negation filters s = .ok e t → s.Took t [.expr e]
  signed : ∀ s e t, g.signed s = .ok e t → s.Took t [.expr e]
  group : ∀ s e t, g.group s = .ok e t →
    s.Took t [.expr e] ∨ s = t ∧ e = .tuple [] .load s.stream.current.line

/-! ### Arguments -/

theorem took_separator {needed : Bool} {x : Unit} (h : parseSeparator needed s = .ok x t) :
    s.Took t [] ∨ s.Took t [.symbol .comma] := by
  cases needed with
  | true =>
    obtain ⟨hfits, h⟩ := of_expect h
    obtain ⟨-, rfl⟩ := of_pure h
    exact .inr (took_stepped hfits)
  | false =>
    obtain ⟨-, rfl⟩ := of_pure h
    exact .inl (.nil t)

/-- **A series behind a separator** is still one. -/
theorem took_series {pieces : α → List Piece} {xs : List α} {needed : Bool} {z : Unit}
    (h : ∃ ps, Series .comma pieces ps xs ∧ s.Took t ps) (hsep : parseSeparator needed t = .ok z u) :
    ∃ ps, Series .comma pieces ps xs ∧ s.Took u ps := by
  obtain ⟨ps, hps, ht⟩ := h
  rcases took_separator hsep with hu | hu
  · have hu := ht.append hu
    rw [List.append_nil] at hu
    exact ⟨ps, hps, hu⟩
  · exact ⟨_, hps.separator, ht.append hu⟩

theorem took_plainArgument (hg : g.Forming) {args a : Arguments Expr}
    (h : parsePlainArgument g form line args s = .ok a t) :
    ∃ x : Argument, a = args.add x ∧ s.Took t x.pieces := by
  have hpositional (h : (do
      require args.keywords.isEmpty line
      let value ← g.expression true form.filters
      return { args with positional := args.positional ++ [value] }) s = .ok a t) :
      ∃ x : Argument, a = args.add x ∧ s.Took t x.pieces := by
    have h := of_require h
    obtain ⟨value, u, hu, h⟩ := bind_eq_ok.1 h
    obtain ⟨rfl, rfl⟩ := of_pure h
    exact ⟨.positional value, rfl, hg.expression _ _ _ _ _ hu⟩
  have h := of_require h
  have h := of_current h
  have h := of_look h
  cases hname : s.stream.current.name? with
  | none =>
    rw [hname] at h
    exact hpositional h
  | some key =>
    cases hassign : s.stepped.stream.current.isSymbol .assign with
    | false =>
      rw [hname, hassign] at h
      exact hpositional h
    | true =>
      rw [hname, hassign] at h
      have hkey : s.stream.current.isName key = true :=
        Token.isName_iff.2 (Token.name?_eq_some_iff.1 hname)
      have h := of_skipTwo h
      obtain ⟨value, u, hu, h⟩ := bind_eq_ok.1 h
      obtain ⟨rfl, rfl⟩ := of_pure h
      have hvalue := (hg.expression _ _ _ _ _ hu).behindSymbol hassign
      exact ⟨.keyword key value, rfl, hvalue.behindWord hkey⟩

/-- **One more argument.** -/
theorem took_argument (hg : g.Forming) {args a : Arguments Expr}
    (h : parseArgument g form line args s = .ok a t) :
    ∃ x : Argument, a = args.add x ∧ s.Took t x.pieces := by
  have h := of_atSymbol h
  split at h
  · next hmul =>
    have h := of_require h
    have h := of_step h
    obtain ⟨value, u, hu, h⟩ := bind_eq_ok.1 h
    obtain ⟨rfl, rfl⟩ := of_pure h
    exact ⟨.spread value, rfl, (hg.expression _ _ _ _ _ hu).behindSymbol hmul⟩
  · have h := of_atSymbol h
    split at h
    · next hpow =>
      have h := of_require h
      have h := of_step h
      obtain ⟨value, u, hu, h⟩ := bind_eq_ok.1 h
      obtain ⟨rfl, rfl⟩ := of_pure h
      exact ⟨.spreadKeywords value, rfl, (hg.expression _ _ _ _ _ hu).behindSymbol hpow⟩
    · exact took_plainArgument hg h

/-- **The arguments** up to the end of their list. -/
theorem took_argumentList (hg : g.Forming) {a : Arguments Expr}
    (h : parseArgumentList g form line s = .ok a t) :
    ∃ xs, a = .ofList xs ∧ ∃ ps, Series .comma Argument.pieces ps xs ∧ s.Took t ps := by
  refine repeatFrom_rule
    (fun x u =>
      ∃ xs, x.1 = Arguments.ofList xs ∧ ∃ ps, Series .comma Argument.pieces ps xs ∧ s.Took u ps)
    (fun a t => ∃ xs, a = Arguments.ofList xs ∧ ∃ ps, Series .comma Argument.pieces ps xs ∧ s.Took t ps)
    ?_ ⟨[], rfl, [], .nil, .nil s⟩ h
  rintro ⟨args, later⟩ u z v ⟨xs, rfl, htook⟩ hz
  have hz := of_current hz
  split at hz
  · obtain ⟨rfl, rfl⟩ := of_pure hz
    exact ⟨xs, rfl, htook⟩
  · obtain ⟨_, w, hw, hz⟩ := bind_eq_ok.1 hz
    obtain ⟨ps, hps, hsep⟩ := took_series htook hw
    have hz := of_current hz
    split at hz
    · obtain ⟨rfl, rfl⟩ := of_pure hz
      exact ⟨xs, rfl, ps, hps, hsep⟩
    · obtain ⟨a, w', ha, hz⟩ := bind_eq_ok.1 hz
      obtain ⟨rfl, rfl⟩ := of_pure hz
      obtain ⟨x, rfl, hx⟩ := took_argument hg ha
      exact ⟨xs ++ [x], (Arguments.ofList_concat xs x).symm, _, hps.item x, hsep.append hx⟩

/-- **An argument list** with what stands around it. -/
theorem took_arguments (hg : g.Forming) {a : Arguments Expr} (h : parseArguments g s = .ok a t) :
    ∃ ps, Application ps a ∧ s.Took t ps ∧
      LineIn s.stream.tokens t.stream.tokens s.stream.current.line := by
  have h := of_current h
  cases hform : ArgumentForm.ofToken? s.stream.current with
  | none =>
    rw [hform] at h
    exact absurd h (failAt_ne_ok _ _)
  | some form =>
    rw [hform] at h
    have h := of_step h
    obtain ⟨args, u, hu, h⟩ := bind_eq_ok.1 h
    obtain ⟨xs, rfl, ps, hps, htook⟩ := took_argumentList hg hu
    have hclosed := isClosedBy_of_argumentList hu
    rcases kind_of_ofToken? hform with ⟨rfl, hopen⟩ | ⟨rfl, hopen⟩
    · have hopen : s.stream.current.isSymbol .lParen = true := Token.isSymbol_iff.2 hopen
      have h := of_step h
      obtain ⟨rfl, rfl⟩ := of_pure h
      have hall : s.stepped.Took u.stepped (ps ++ [.symbol .rParen]) := Took.closed htook hclosed
      exact ⟨_, .parentheses hps, hall.behindSymbol hopen, hall.lineIn hopen⟩
    · have hopen : s.stream.current.isSymbol .colon = true := Token.isSymbol_iff.2 hopen
      obtain ⟨rfl, rfl⟩ := of_pure h
      exact ⟨_, .colon hps, htook.behindSymbol hopen, htook.lineIn hopen⟩

theorem took_optionalArguments (hg : g.Forming) {a : Arguments Expr}
    (h : parseOptionalArguments g s = .ok a t) : ∃ ps, Application ps a ∧ s.Took t ps := by
  have h := of_current h
  split at h
  · obtain ⟨ps, hps, htook, -⟩ := took_arguments hg h
    exact ⟨ps, hps, htook⟩
  · obtain ⟨rfl, rfl⟩ := of_pure h
    exact ⟨[], .none, .nil _⟩

/-! ### Filters and calls -/

/-- **The parts of a name** behind its first one. -/
theorem took_dottedName {first name : String} (h : parseDottedName first s = .ok name t) :
    ∃ ps, (∀ qs, DottedName qs → DottedName (qs ++ ps)) ∧ s.Took t ps := by
  refine repeatFrom_rule
    (fun _ u => ∃ ps, (∀ qs, DottedName qs → DottedName (qs ++ ps)) ∧ s.Took u ps)
    (fun _ u => ∃ ps, (∀ qs, DottedName qs → DottedName (qs ++ ps)) ∧ s.Took u ps)
    ?_ ⟨[], fun qs hqs => by rwa [List.append_nil], .nil s⟩ h
  rintro text u z v ⟨ps, hps, htook⟩ hz
  rcases of_skipIf hz with ⟨hdot, hz⟩ | hz
  · obtain ⟨hpart, hz⟩ := of_expect hz
    obtain ⟨rfl, rfl⟩ := of_pure hz
    refine ⟨_, fun qs hqs => ?_, htook.append ((took_stepped hpart).behind hdot)⟩
    rw [← List.append_assoc]
    exact (hps qs hqs).more
  · obtain ⟨rfl, rfl⟩ := of_pure hz
    exact ⟨ps, hps, htook⟩

/-- **A name with dots and arguments.** -/
theorem took_application {first name : String} {a : Arguments Expr}
    (hfirst : s.stream.current.fits (.type .name) = true)
    (hname : parseDottedName first s.stepped = .ok name t) (ha : ∃ qs, Application qs a ∧ t.Took u qs) :
    ∃ ps qs, DottedName ps ∧ Application qs a ∧ s.Took u (ps ++ qs) ∧
      u.stream.tokens <:+ s.stepped.stream.tokens := by
  obtain ⟨ps, hps, htook⟩ := took_dottedName hname
  obtain ⟨qs, hqs, hargs⟩ := ha
  have hrest := htook.append hargs
  exact ⟨_, qs, hps _ .one, hqs, hrest.behind hfirst, hrest.suffix⟩

/-- A filter from its name on: its name and its arguments. -/
theorem took_filterName (hg : g.Forming) {node : Option Expr} (h : parseFilterName g node s = .ok e t) :
    ∃ text a ps qs, e = .filter node text a s.stream.current.line ∧ DottedName ps ∧ Application qs a ∧
      s.Took t (ps ++ qs) ∧ LineIn s.stream.tokens t.stream.tokens s.stream.current.line := by
  obtain ⟨hfirst, h⟩ := of_expect h
  obtain ⟨text, u, hu, h⟩ := bind_eq_ok.1 h
  obtain ⟨a, v, hv, h⟩ := bind_eq_ok.1 h
  obtain ⟨rfl, rfl⟩ := of_pure h
  obtain ⟨ps, qs, hps, hqs, htook, hsuf⟩ := took_application hfirst hu (took_optionalArguments hg hv)
  exact ⟨text, a, ps, qs, rfl, hps, hqs, htook, lineIn_first (Token.isEnd_of_fits hfirst) hsuf⟩

/-- **Filters** on an expression that has been taken, or the first ones of a filter block. -/
theorem took_filters (hg : g.Forming) {node : Option Expr} {bare : Bool}
    (hnode : ∀ d ∈ node, s.Took t [.expr d]) (hstart : node = none → t = s)
    (hbare : bare = true ↔ node = none) (h : parseFilters g node bare t = .ok e u) :
    s.Took u [.expr e] := by
  refine repeatFrom_rule
    (fun x u => (∀ d ∈ x.1, s.Took u [.expr d]) ∧ (x.1 = none → u = s) ∧ (x.2 = true ↔ x.1 = none))
    (fun e u => s.Took u [.expr e]) ?_ ⟨hnode, hstart, hbare⟩ h
  rintro ⟨node, bare⟩ u z v ⟨hnode, hstart, hbare⟩ hz
  -- The name of a filter stands right behind a pipe, or it is the first token of a filter block.
  cases node with
  | none =>
    obtain rfl : bare = true := hbare.2 rfl
    obtain rfl : u = s := hstart rfl
    obtain ⟨d, w, hd, hz⟩ := bind_eq_ok.1 hz
    obtain ⟨rfl, rfl⟩ := of_pure hz
    obtain ⟨text, a, ps, qs, rfl, hps, hqs, htook, hline⟩ := took_filterName hg hd
    have hfilter := htook.exprIn (.blockFilter text hps hqs _) hline
    exact ⟨fun c hc => Option.some.inj hc ▸ hfilter, nofun, nofun, nofun⟩
  | some node =>
    obtain rfl : bare = false := Bool.eq_false_iff.2 fun h => nomatch hbare.1 h
    rcases of_skipIf hz with ⟨hpipe, hz⟩ | hz
    · obtain ⟨d, w, hd, hz⟩ := bind_eq_ok.1 hz
      obtain ⟨rfl, rfl⟩ := of_pure hz
      obtain ⟨text, a, ps, qs, rfl, hps, hqs, htook, hline⟩ := took_filterName hg hd
      have hall := (hnode node rfl).append (htook.behindSymbol hpipe)
      have hline := (hnode node rfl).lineIn_of_suffix ((took_stepped hpipe).lineIn_of_suffix hline)
      have hfilter := hall.exprIn (.filter node text hps hqs _) hline
      exact ⟨fun c hc => Option.some.inj hc ▸ hfilter, nofun, nofun, nofun⟩
    · obtain ⟨rfl, rfl⟩ := of_pure hz
      exact hnode node rfl

/-- **A call** of an expression that has been taken. -/
theorem took_call (hg : g.Forming) {node : Expr} (hnode : s.Took t [.expr node])
    (h : parseCall g node t = .ok e u) : s.Took u [.expr e] := by
  have h := of_current h
  obtain ⟨a, v, hv, h⟩ := bind_eq_ok.1 h
  obtain ⟨rfl, rfl⟩ := of_pure h
  obtain ⟨ps, hps, htook, hline⟩ := took_arguments hg hv
  exact (hnode.append htook).exprIn (.call node hps _) (hnode.lineIn_of_suffix hline)

end LiquidTemplate
