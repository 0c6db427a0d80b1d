import LiquidTemplate.Proofs.Forms.Arguments

/-!
# The tokens of expressions

A parser of expressions consumes tokens that form them, and makes up no names.

* `took_items`, `took_primary`: lists, dictionaries, range literals and other primaries.
* `took_postfix`, `took_trailers`: what stands behind a primary.
* `took_leftChain`, `took_compare`, `took_expression`: operators.
* `took_tuple`, `took_target`: tuples and targets.
-/

namespace LiquidTemplate

open LiquidTemplate.Parser LiquidTemplate.Grammar LiquidTemplate.ParserState

variable {α : Type} {g : Grammar} {s t u : ParserState} {e node : Expr} {line : Nat}

/-! ### Primaries -/

theorem took_items {closing : Symbol} {item : Parser α} {pieces : α → List Piece}
    (hitem : ∀ s x t, item s = .ok x t → s.Took t (pieces x)) {xs : List α}
    (h : parseItems closing item s = .ok xs t) : ∃ ps, Series .comma pieces ps xs ∧ s.Took t ps := by
  refine repeatFrom_rule (fun xs u => ∃ ps, Series .comma pieces ps xs ∧ s.Took u ps)
    (fun xs u => ∃ ps, Series .comma pieces ps xs ∧ s.Took u ps) ?_ ⟨[], .nil, .nil s⟩ h
  intro xs u z v hxs hz
  have hz := of_atSymbol hz
  split at hz
  · obtain ⟨rfl, rfl⟩ := of_pure hz
    exact hxs
  · obtain ⟨_, w, hw, hz⟩ := bind_eq_ok.1 hz
    obtain ⟨ps, hps, hsep⟩ := took_series hxs hw
    have hz := of_atSymbol hz
    split at hz
    · obtain ⟨rfl, rfl⟩ := of_pure hz
      exact ⟨ps, hps, hsep⟩
    · obtain ⟨x, w', hx, hz⟩ := bind_eq_ok.1 hz
      obtain ⟨rfl, rfl⟩ := of_pure hz
      exact ⟨_, hps.item x, hsep.append (hitem w x v hx)⟩

/-- **Lists.** -/
theorem took_list (hg : g.Forming) (h : parseList g s = .ok e t) : s.Took t [.expr e] := by
  obtain ⟨hopen, h⟩ := of_expect h
  obtain ⟨items, u, hu, h⟩ := bind_eq_ok.1 h
  obtain ⟨hclosed, h⟩ := of_expect h
  obtain ⟨rfl, rfl⟩ := of_pure h
  obtain ⟨ps, hps, htook⟩ := took_items (hg.expression true true) hu
  have hall : s.stepped.Took u.stepped (ps ++ [.symbol .rBracket]) := Took.closed htook hclosed
  exact (hall.behindSymbol hopen).exprIn (.list hps _) (hall.lineIn hopen)

theorem took_entry (hg : g.Forming) (s : ParserState) (x : Entry Expr) (t : ParserState)
    (h : parseEntry g s = .ok x t) : s.Took t x.pieces := by
  obtain ⟨key, u, hkey, h⟩ := bind_eq_ok.1 h
  obtain ⟨hcolon, h⟩ := of_expect h
  obtain ⟨value, v, hvalue, h⟩ := bind_eq_ok.1 h
  obtain ⟨rfl, rfl⟩ := of_pure h
  have hrest := (hg.expression true true _ _ _ hvalue).behindSymbol hcolon
  exact (hg.expression true true _ _ _ hkey).append hrest

/-- **Dictionaries.** -/
theorem took_dict (hg : g.Forming) (h : parseDict g s = .ok e t) : s.Took t [.expr e] := by
  obtain ⟨hopen, h⟩ := of_expect h
  obtain ⟨entries, u, hu, h⟩ := bind_eq_ok.1 h
  obtain ⟨hclosed, h⟩ := of_expect h
  obtain ⟨rfl, rfl⟩ := of_pure h
  obtain ⟨ps, hps, htook⟩ := took_items (took_entry hg) hu
  have hall : s.stepped.Took u.stepped (ps ++ [.symbol .rBrace]) := Took.closed htook hclosed
  exact (hall.behindSymbol hopen).exprIn (.dict hps _) (hall.lineIn hopen)

/-- **Range literals.** -/
theorem took_range (hg : g.Forming) {a b : String} (hk : s.stream.current.kind = .range a b)
    (h : parseRange g s.stream.current a b s.stepped = .ok e t) : s.Took t [.expr e] := by
  obtain ⟨rfl, first, stop, hfirst, hstop, u, hu, hend⟩ := parseRange_eq_ok.1 h
  have hinner := (hg.expression true true _ _ _ hu).forms
  rw [TokenStream.tokens_ofTokens] at hinner
  refine ⟨?_, rfl⟩
  rw [stepped_tokens (Token.isEnd_of_kind hk nofun)]
  exact .range hk hfirst.tokens hstop.tokens hinner hend .nil

/-- The string tokens behind a string. -/
theorem took_string {first text : String} (h : parseString first s = .ok text t) :
    ∃ n, s.Took t (List.replicate n (.token (.type .string))) := by
  refine repeatFrom_rule (fun _ u => ∃ n, s.Took u (List.replicate n (.token (.type .string))))
    (fun _ u => ∃ n, s.Took u (List.replicate n (.token (.type .string)))) ?_ ⟨0, .nil s⟩ h
  rintro text u z v ⟨n, htook⟩ hz
  have hz : Gives _ u z v := of_current hz
  split at hz
  · next more hk =>
    have hz := of_step hz
    obtain ⟨rfl, rfl⟩ := of_pure hz
    have hstring : u.stream.current.fits (.type .string) = true := by
      rw [Token.fits_eq, hk]
      rfl
    refine ⟨n + 1, ?_⟩
    rw [List.replicate_succ']
    exact htook.closed hstring
  · obtain ⟨rfl, rfl⟩ := of_pure hz
    exact ⟨n, htook⟩

/-- **One token** that is an expression. -/
theorem took_token {rule : TokenRule} [rule.Solid] (hfits : s.stream.current.fits rule = true)
    (hlayout : e.Layout [.token rule]) (hline : e.line = s.stream.current.line) :
    s.Took s.stepped [.expr e] := by
  refine (took_stepped hfits).exprIn hlayout (hline ▸ ?_)
  exact lineIn_first (Token.isEnd_of_fits hfits) (List.suffix_refl _)

theorem fits_of_kind {k : Token.Kind} (h : s.stream.current.kind = k) :
    s.stream.current.fits (.type k.type) = true := by
  rw [Token.fits_eq, h]
  exact beq_self_eq_true k.type

/-- **Literals** of one token. -/
theorem took_literal {k : Token.Kind} (v : Constant) (hk : s.stream.current.kind = k)
    (htype : k.type ∈ [.name, .integer, .float]) :
    s.Took s.stepped [.expr (.const v s.stream.current.line)] := by
  have hsolid : (TokenRule.type k.type).Solid := by
    refine ⟨fun hend => ?_⟩
    rw [TokenRule.type.inj hend] at htype
    simp at htype
  exact took_token (fits_of_kind hk) (.literal v _ htype) rfl

/-- **Primaries.** -/
theorem took_primary (hg : g.Forming) (h : parsePrimary g s = .ok e t) : s.Took t [.expr e] := by
  have h : Gives _ s e t := of_current h
  split at h
  · next name hk =>
    have h : Gives _ s.stepped e t := of_step h
    split at h
    · obtain ⟨rfl, rfl⟩ := of_pure h
      exact took_literal _ hk (List.mem_cons_self ..)
    · obtain ⟨rfl, rfl⟩ := of_pure h
      have hname : s.stream.current.fits (.name name) = true := Token.isName_iff.2 hk
      exact took_token hname (.name name .load _) rfl
  · next first hk =>
    have h := of_step h
    obtain ⟨text, u, hu, h⟩ := bind_eq_ok.1 h
    obtain ⟨rfl, rfl⟩ := of_pure h
    obtain ⟨n, htook⟩ := took_string hu
    have hstring : s.stream.current.fits (.type .string) = true := fits_of_kind hk
    refine (htook.behind hstring).exprIn (.string text _ n) ?_
    exact lineIn_first (Token.isEnd_of_kind hk nofun) htook.suffix
  · next value hk =>
    have h := of_step h
    obtain ⟨rfl, rfl⟩ := of_pure h
    exact took_literal _ hk (by simp [Token.Kind.type])
  · next value hk =>
    have h := of_step h
    obtain ⟨rfl, rfl⟩ := of_pure h
    exact took_literal _ hk (by simp [Token.Kind.type])
  · next hk =>
    have hopen : s.stream.current.fits (.type (.symbol .lParen)) = true := Token.isSymbol_iff.2 hk
    have h := of_step h
    obtain ⟨e', u, hu, h⟩ := bind_eq_ok.1 h
    obtain ⟨hclosed, h⟩ := of_expect h
    obtain ⟨rfl, rfl⟩ := of_pure h
    rcases hg.group _ _ _ hu with htook | ⟨rfl, rfl⟩
    · exact Took.parenthesized hopen htook hclosed
    · have hnothing : s.stepped.Took s.stepped.stepped [.symbol .rParen] := took_stepped hclosed
      refine (hnothing.behindSymbol hopen).exprIn (.nothing .load _) ?_
      have hline := lineIn_first (Token.isEnd_of_fits hclosed) (List.suffix_refl _)
      exact (took_stepped hopen).lineIn_of_suffix hline
  · exact took_list hg h
  · exact took_dict hg h
  · next a b hk =>
    have h := of_step h
    exact took_range hg hk h
  · exact absurd h (failAt_ne_ok _ _)

/-! ### Members, subscripts and calls -/

/-- **The line of the first token** of a run that goes on behind a token. -/
theorem lineIn_start (hu : u.stream.tokens <:+ s.stream.tokens) (hend : u.stream.current.isEnd = false)
    (ht : t.stream.tokens <:+ u.stepped.stream.tokens) :
    LineIn s.stream.tokens t.stream.tokens s.stream.current.line := by
  rw [stepped_tokens hend] at ht
  refine ⟨s.stream.current, s.stream.later, List.suffix_refl _, ?_, rfl⟩
  rcases List.suffix_cons_iff.1 hu with heq | hsuf
  · exact (List.cons.inj heq).2 ▸ ht
  · exact ht.trans ((List.suffix_cons _ _).trans hsuf)

theorem took_slicePart (hg : g.Forming) {ends : List Symbol} {o : Option Expr}
    (h : parseSlicePart g ends s = .ok o t) : s.Took t (Expr.optional o) := by
  have h := of_current h
  split at h
  · obtain ⟨rfl, rfl⟩ := of_pure h
    exact .nil _
  · obtain ⟨e, u, hu, h⟩ := bind_eq_ok.1 h
    obtain ⟨rfl, rfl⟩ := of_pure h
    exact hg.expression true true _ _ _ hu

/-- The rest of a slice behind its first colon. -/
theorem took_sliceFrom (hg : g.Forming) {start : Option Expr}
    (hstart : s.Took t (Expr.optional start ++ [.symbol .colon]))
    (hline : LineIn s.stream.tokens t.stream.tokens line)
    (h : parseSliceFrom g start line t = .ok e u) : s.Took u [.expr e] := by
  obtain ⟨stop, v, hstop, h⟩ := bind_eq_ok.1 h
  have htook := hstart.append (took_slicePart hg hstop)
  have hline := hline.mono (List.suffix_refl _) (took_slicePart hg hstop).suffix
  rw [List.append_assoc, List.singleton_append] at htook
  rcases of_skipIf h with ⟨hcolon, h⟩ | h
  · obtain ⟨step, w, hstep, h⟩ := bind_eq_ok.1 h
    obtain ⟨rfl, rfl⟩ := of_pure h
    have hrest := (took_slicePart hg hstep).behind hcolon
    exact (htook.append hrest).exprIn (.stepSlice start stop step line)
      (hline.mono (List.suffix_refl _) hrest.suffix)
  · obtain ⟨rfl, rfl⟩ := of_pure h
    exact htook.exprIn (.slice start stop line) hline

/-- **Subscripts**: expressions and slices. -/
theorem took_subscript (hg : g.Forming) (h : parseSubscript g s = .ok e t) : s.Took t [.expr e] := by
  have h := of_current h
  rcases of_skipIf h with ⟨hcolon, h⟩ | h
  · have hstart : s.Took s.stepped (Expr.optional none ++ [.symbol .colon]) := took_stepped hcolon
    exact took_sliceFrom hg hstart (lineIn_first (Token.isEnd_of_fits hcolon) (List.suffix_refl _)) h
  · obtain ⟨e', u, hu, h⟩ := bind_eq_ok.1 h
    have htook := hg.expression true true _ _ _ hu
    rcases of_skipIf h with ⟨hcolon, h⟩ | h
    · have hstart : s.Took u.stepped (Expr.optional (some e') ++ [.symbol .colon]) :=
        htook.closed hcolon
      have hline := lineIn_start htook.suffix (Token.isEnd_of_fits hcolon) (List.suffix_refl _)
      exact took_sliceFrom hg hstart hline h
    · obtain ⟨rfl, rfl⟩ := of_pure h
      exact htook

theorem took_subscripts (hg : g.Forming) {es : List Expr} (h : parseSubscripts g s = .ok es t) :
    ∃ ps, Series .comma Expr.piece ps es ∧ s.Took t ps := by
  refine repeatFrom_rule (fun es u => ∃ ps, Series .comma Expr.piece ps es ∧ s.Took u ps)
    (fun es u => ∃ ps, Series .comma Expr.piece ps es ∧ s.Took u ps) ?_ ⟨[], .nil, .nil s⟩ h
  intro es u z v hes hz
  have hz := of_atSymbol hz
  split at hz
  · obtain ⟨rfl, rfl⟩ := of_pure hz
    exact hes
  · obtain ⟨_, w, hw, hz⟩ := bind_eq_ok.1 hz
    obtain ⟨ps, hps, hsep⟩ := took_series hes hw
    obtain ⟨x, w', hx, hz⟩ := bind_eq_ok.1 hz
    obtain ⟨rfl, rfl⟩ := of_pure hz
    exact ⟨_, hps.item x, hsep.append (took_subscript hg hx)⟩

/-- **A member** of an expression that has been taken. -/
theorem took_member (hnode : s.Took t [.expr node]) (hdot : t.stream.current.isSymbol .dot = true)
    (h : parseMember node t.stream.current.line t.stepped = .ok e u) : s.Took u [.expr e] := by
  have h : Gives _ t.stepped.stepped e u := of_advance h
  have hline {v : ParserState} (hv : v.stream.tokens <:+ t.stepped.stream.tokens) :
      LineIn s.stream.tokens v.stream.tokens t.stream.current.line :=
    hnode.lineIn_of_suffix (lineIn_first (Token.isEnd_of_isSymbol hdot) hv)
  split at h
  · next attr hk =>
    obtain ⟨rfl, rfl⟩ := of_pure h
    have hname : t.stepped.stream.current.fits (.name attr) = true := Token.isName_iff.2 hk
    have hattr : t.stepped.Took t.stepped.stepped [.word attr] := took_stepped hname
    exact (hnode.append (hattr.behindSymbol hdot)).exprIn (.member node attr _) (hline hattr.suffix)
  · next index hk =>
    obtain ⟨rfl, rfl⟩ := of_pure h
    have hindex := took_literal (.int index) hk (by simp [Token.Kind.type])
    exact (hnode.append (hindex.behindSymbol hdot)).exprIn (.index node _ _) (hline hindex.suffix)
  · exact absurd h (failAt_ne_ok _ _)

/-- **An item** of an expression that has been taken. -/
theorem took_item (hg : g.Forming) (hnode : s.Took t [.expr node])
    (hopen : t.stream.current.isSymbol .lBracket = true)
    (h : parseItem g node t.stream.current.line t.stepped = .ok e u) : s.Took u [.expr e] := by
  obtain ⟨es, v, hv, h⟩ := bind_eq_ok.1 h
  obtain ⟨hclosed, h⟩ := of_expect h
  obtain ⟨ps, hps, htook⟩ := took_subscripts hg hv
  have hinner : t.stepped.Took v.stepped (ps ++ [.symbol .rBracket]) := Took.closed htook hclosed
  have hline := hinner.lineIn hopen
  have hseveral (hes : (pure (.item node (.tuple es .load t.stream.current.line) t.stream.current.line) :
      Parser Expr) v.stepped = .ok e u) : s.Took u [.expr e] := by
    obtain ⟨rfl, rfl⟩ := of_pure hes
    have htuple := (hinner.behindSymbol hopen).exprIn (.subscripts hps .load _) hline
    exact (hnode.append htuple).exprIn (.items node _ _) (hnode.lineIn_of_suffix hline)
  match es, hps, hseveral, h with
  | [], _, hseveral, h => exact hseveral h
  | [arg], hps, _, h =>
    obtain ⟨rfl, rfl⟩ := of_pure h
    have hall := hnode.append (hinner.behindSymbol hopen)
    exact hall.exprIn (.item node hps _) (hnode.lineIn_of_suffix hline)
  | _ :: _ :: _, _, hseveral, h => exact hseveral h

/-- **Members, items and calls** behind an expression that has been taken. -/
theorem took_postfix (hg : g.Forming) (hnode : s.Took t [.expr node])
    (h : parsePostfix g node t = .ok e u) : s.Took u [.expr e] := by
  refine repeatFrom_rule (fun node t => s.Took t [.expr node]) (fun e u => s.Took u [.expr e]) ?_ hnode h
  intro node t z u hnode hz
  have hz : Gives _ t z u := of_current hz
  split at hz
  · next hk =>
    have hz := of_step hz
    obtain ⟨e, v, he, hz⟩ := bind_eq_ok.1 hz
    obtain ⟨rfl, rfl⟩ := of_pure hz
    exact took_member hnode (Token.isSymbol_iff.2 hk) he
  · next hk =>
    have hz := of_step hz
    obtain ⟨e, v, he, hz⟩ := bind_eq_ok.1 hz
    obtain ⟨rfl, rfl⟩ := of_pure hz
    exact took_item hg hnode (Token.isSymbol_iff.2 hk) he
  · obtain ⟨e, v, he, hz⟩ := bind_eq_ok.1 hz
    obtain ⟨rfl, rfl⟩ := of_pure hz
    exact took_call hg hnode he
  · obtain ⟨rfl, rfl⟩ := of_pure hz
    exact hnode

/-! ### Tests and trailers -/

theorem took_testArguments (hg : g.Forming) {a : Arguments Expr}
    (h : parseTestArguments g s = .ok a t) : ∃ ps, Application ps a ∧ s.Took t ps := by
  have h := of_current h
  split at h
  · obtain ⟨ps, hps, htook, -⟩ := took_arguments hg h
    exact ⟨ps, hps, htook⟩
  · split at h
    · split at h
      · exact absurd h (fail_ne_ok _)
      · obtain ⟨e, u, hu, h⟩ := bind_eq_ok.1 h
        obtain ⟨rfl, rfl⟩ := of_pure h
        exact ⟨_, .bare e, took_primary hg hu⟩
    · obtain ⟨rfl, rfl⟩ := of_pure h
      exact ⟨[], .none, .nil _⟩

/-- **A test** of an expression that has been taken. -/
theorem took_test (hg : g.Forming) (hnode : s.Took t [.expr node])
    (his : t.stream.current.isName "is" = true) (h : parseTest g node t = .ok e u) :
    s.Took u [.expr e] := by
  have h := of_advance h
  obtain ⟨negated, v, hv, h⟩ := bind_eq_ok.1 h
  obtain ⟨hfirst, h⟩ := of_expect h
  obtain ⟨name, w, hw, h⟩ := bind_eq_ok.1 h
  obtain ⟨a, w', hw', h⟩ := bind_eq_ok.1 h
  obtain ⟨he, rfl⟩ := of_pure h
  obtain ⟨ps, qs, hps, hqs, htook, -⟩ := took_application hfirst hw (took_testArguments hg hw')
  have hlineIn {x : ParserState} (hx : x.stream.tokens <:+ t.stepped.stream.tokens) :
      LineIn s.stream.tokens x.stream.tokens t.stream.current.line :=
    hnode.lineIn_of_suffix (lineIn_first (Token.isEnd_of_isName his) hx)
  cases negated with
  | false =>
    obtain ⟨rfl, -⟩ := skipIf_eq_false.1 hv
    subst he
    exact (hnode.append (htook.behindWord his)).exprIn (.test node name hps hqs _) (hlineIn htook.suffix)
  | true =>
    obtain ⟨hnot, rfl⟩ := skipIf_eq_true.1 hv
    subst he
    have hrest : t.stepped.Took u (.word "not" :: (ps ++ qs)) := htook.behind hnot
    have hline := hlineIn hrest.suffix
    have htest := (hnode.append (hrest.behindWord his)).exprIn (.negatedTest node name hps hqs _) hline
    exact htest.exprIn (.notTest _ _) hline

/-- **Filters, tests and calls** behind an expression that has been taken. -/
theorem took_trailers (hg : g.Forming) (hnode : s.Took t [.expr node])
    (h : parseTrailers g node t = .ok e u) : s.Took u [.expr e] := by
  refine repeatFrom_rule (fun node t => s.Took t [.expr node]) (fun e u => s.Took u [.expr e]) ?_ hnode h
  intro node t z u hnode hz
  have hz := of_current hz
  split at hz
  · obtain ⟨e, v, he, hz⟩ := bind_eq_ok.1 hz
    obtain ⟨rfl, rfl⟩ := of_pure hz
    have hinput : ∀ d ∈ some node, s.Took t [.expr d] := fun d hd => Option.some.inj hd ▸ hnode
    have hbare : false = true ↔ some node = none := ⟨nofun, nofun⟩
    exact took_filters hg hinput nofun hbare he
  · split at hz
    · next his =>
      obtain ⟨e, v, he, hz⟩ := bind_eq_ok.1 hz
      obtain ⟨rfl, rfl⟩ := of_pure hz
      exact took_test hg hnode his he
    · split at hz
      · obtain ⟨e, v, he, hz⟩ := bind_eq_ok.1 hz
        obtain ⟨rfl, rfl⟩ := of_pure hz
        exact took_call hg hnode he
      · obtain ⟨rfl, rfl⟩ := of_pure hz
        exact hnode

/-! ### Operators -/

/-- **A prefix** of an expression. -/
theorem took_prefix {rule : TokenRule} [rule.Solid] (hfits : s.stream.current.fits rule = true)
    (htook : s.stepped.Took t [.expr node]) (hlayout : e.Layout [.token rule, .expr node])
    (hline : e.line = s.stream.current.line) : s.Took t [.expr e] :=
  (htook.behind hfits).exprIn hlayout
    (hline ▸ lineIn_first (Token.isEnd_of_fits hfits) htook.suffix)

theorem took_sign (hg : g.Forming) (h : parseSign g s = .ok e t) : s.Took t [.expr e] := by
  have h := of_current h
  split at h
  · next hsub =>
    have h := of_step h
    obtain ⟨e', u, hu, h⟩ := bind_eq_ok.1 h
    obtain ⟨rfl, rfl⟩ := of_pure h
    have hfits : s.stream.current.fits (.type (.symbol .sub)) = true := hsub
    exact took_prefix hfits (hg.signed _ _ _ hu) (.neg e' _) rfl
  · split at h
    · next hadd =>
      have h := of_step h
      obtain ⟨e', u, hu, h⟩ := bind_eq_ok.1 h
      obtain ⟨rfl, rfl⟩ := of_pure h
      have hfits : s.stream.current.fits (.type (.symbol .add)) = true := hadd
      exact took_prefix hfits (hg.signed _ _ _ hu) (.pos e' _) rfl
    · exact took_primary hg h

theorem took_signed (hg : g.Forming) (filters : Bool) (s : ParserState) (e : Expr) (t : ParserState)
    (h : parseSigned g filters s = .ok e t) : s.Took t [.expr e] := by
  obtain ⟨e', u, hu, h⟩ := bind_eq_ok.1 h
  obtain ⟨e'', v, hv, h⟩ := bind_eq_ok.1 h
  have htook := took_postfix hg (took_sign hg hu) hv
  cases filters with
  | true => exact took_trailers hg htook h
  | false =>
    obtain ⟨rfl, rfl⟩ := of_pure h
    exact htook

/-- **Chains of operands.** Each operator stands on the line of the first token of the chain, or on
its own one. -/
theorem took_leftChain {operand : Parser Expr} {operator? : Token → Option (Expr → Expr → Nat → Expr)}
    (hoperand : ∀ s e t, operand s = .ok e t → s.Took t [.expr e])
    (hbuild : ∀ tok build, operator? tok = some build → ∃ rule : TokenRule, rule.Solid ∧
      tok.fits rule = true ∧ ∀ left right line, (build left right line).line = line ∧
        (build left right line).Layout [.expr left, .token rule, .expr right])
    (h : leftChain operand operator? s = .ok e t) : s.Took t [.expr e] := by
  have h := of_current h
  obtain ⟨first, u, hu, h⟩ := bind_eq_ok.1 h
  refine repeatFrom_rule (fun x u => s.Took u [.expr x.1] ∧
      (x.2 = s.stream.current.line ∨ x.2 = u.stream.current.line))
    (fun e u => s.Took u [.expr e]) ?_ ⟨hoperand _ _ _ hu, .inl rfl⟩ h
  rintro ⟨left, line⟩ u z v ⟨hleft, hline⟩ hz
  have hz : Gives _ u z v := of_current hz
  split at hz
  · obtain ⟨rfl, rfl⟩ := of_pure hz
    exact hleft
  · next build hop =>
    obtain ⟨rule, hsolid, hfits, hmade⟩ := hbuild _ build hop
    have hz := of_step hz
    obtain ⟨right, w, hw, hz⟩ := bind_eq_ok.1 hz
    have hz := of_current hz
    obtain ⟨rfl, rfl⟩ := of_pure hz
    have hright := hoperand _ _ _ hw
    have hend := Token.isEnd_of_fits hfits
    obtain ⟨hown, hlayout⟩ := hmade left right line
    refine ⟨(hleft.append (hright.behind hfits)).exprIn hlayout ?_, .inr rfl⟩
    rw [hown]
    rcases hline with rfl | rfl
    · exact lineIn_start hleft.suffix hend hright.suffix
    · exact hleft.lineIn_of_suffix (lineIn_first hend hright.suffix)

/-- An operator of one symbol. -/
theorem binary_build {operator? : Token → Option BinaryOp}
    (hop : ∀ tok op, operator? tok = some op → tok.isSymbol op.symbol = true) (tok : Token)
    (build : Expr → Expr → Nat → Expr) (h : (operator? tok).map Expr.binary = some build) :
    ∃ rule : TokenRule, rule.Solid ∧ tok.fits rule = true ∧ ∀ left right line,
      (build left right line).line = line ∧
        (build left right line).Layout [.expr left, .token rule, .expr right] := by
  obtain ⟨op, hsome, rfl⟩ := Option.map_eq_some_iff.1 h
  refine ⟨.type (.symbol op.symbol), inferInstance, hop tok op hsome, ?_⟩
  exact fun left right l => ⟨rfl, .binary op left right l⟩

theorem took_power (hg : g.Forming) (filters : Bool) (s : ParserState) (e : Expr) (t : ParserState)
    (h : parsePower g filters s = .ok e t) : s.Took t [.expr e] := by
  refine took_leftChain (took_signed hg filters) (binary_build fun tok op hop => ?_) h
  unfold BinaryOp.power? at hop
  split at hop
  · next hpow => exact Option.some.inj hop ▸ hpow
  · nomatch hop

theorem took_product (hg : g.Forming) (filters : Bool) (s : ParserState) (e : Expr) (t : ParserState)
    (h : parseProduct g filters s = .ok e t) : s.Took t [.expr e] := by
  refine took_leftChain (took_power hg filters) (binary_build fun tok op hop => ?_) h
  unfold BinaryOp.multiplicative? at hop
  split at hop
  case h_5 => nomatch hop
  all_goals exact Option.some.inj hop ▸ Token.isSymbol_iff.2 (by assumption)

/-- **Joined texts.** -/
theorem took_concat (hg : g.Forming) (filters : Bool) (s : ParserState) (e : Expr) (t : ParserState)
    (h : parseConcat g filters s = .ok e t) : s.Took t [.expr e] := by
  have h := of_current h
  obtain ⟨es, u, hes, h⟩ := bind_eq_ok.1 h
  obtain ⟨first, v, hfirst, hes⟩ := bind_eq_ok.1 hes
  have htook := took_product hg filters _ _ _ hfirst
  obtain ⟨e', rest, rfl, hall, hline⟩ : ∃ e rest, es = e :: rest ∧
      s.Took u (.expr e :: rest.flatMap Expr.link) ∧
      (rest ≠ [] → LineIn s.stream.tokens u.stream.tokens s.stream.current.line) := by
    refine repeatFrom_rule (fun es u => ∃ e rest, es = e :: rest ∧
        s.Took u (.expr e :: rest.flatMap Expr.link) ∧
        (rest ≠ [] → LineIn s.stream.tokens u.stream.tokens s.stream.current.line))
      (fun es u => ∃ e rest, es = e :: rest ∧
        s.Took u (.expr e :: rest.flatMap Expr.link) ∧
        (rest ≠ [] → LineIn s.stream.tokens u.stream.tokens s.stream.current.line))
      ?_ ⟨first, [], rfl, htook, fun h => absurd rfl h⟩ hes
    rintro _ u z w ⟨e, rest, rfl, hall, hline⟩ hz
    rcases of_skipIf hz with ⟨htilde, hz⟩ | hz
    · obtain ⟨next, w', hw, hz⟩ := bind_eq_ok.1 hz
      obtain ⟨rfl, rfl⟩ := of_pure hz
      have hnext := took_product hg filters _ _ _ hw
      refine ⟨e, rest ++ [next], rfl, ?_, fun _ => ?_⟩
      · rw [List.flatMap_append, ← List.cons_append]
        exact hall.append (hnext.behind htilde)
      · exact lineIn_start hall.suffix (Token.isEnd_of_fits htilde) hnext.suffix
    · obtain ⟨rfl, rfl⟩ := of_pure hz
      exact ⟨e, rest, rfl, hall, hline⟩
  cases rest with
  | nil =>
    obtain ⟨rfl, rfl⟩ := of_pure h
    exact hall
  | cons next rest =>
    obtain ⟨rfl, rfl⟩ := of_pure h
    exact hall.exprIn (.concat e' (next :: rest) _) (hline nofun)

theorem took_sum (hg : g.Forming) (filters : Bool) (s : ParserState) (e : Expr) (t : ParserState)
    (h : parseSum g filters s = .ok e t) : s.Took t [.expr e] := by
  refine took_leftChain (took_concat hg filters) (binary_build fun tok op hop => ?_) h
  unfold BinaryOp.additive? at hop
  split at hop
  case h_3 => nomatch hop
  all_goals exact Option.some.inj hop ▸ Token.isSymbol_iff.2 (by assumption)

/-! ### Comparisons and logic -/

theorem kinds_of_comparison {tok : Token} {op : Comparison} (h : Comparison.ofToken? tok = some op) :
    ∃ x : Symbol, op.kinds = [.symbol x] ∧ tok.isSymbol x = true := by
  unfold Comparison.ofToken? at h
  split at h
  case h_7 => nomatch h
  all_goals exact Option.some.inj h ▸ ⟨_, rfl, Token.isSymbol_iff.2 (by assumption)⟩

/-- **A comparison operator**, if there is one. -/
theorem took_comparison {o : Option Comparison} (h : parseComparison? s = .ok o t) :
    o = none ∧ t = s ∨ ∃ op, o = some op ∧ s.Took t (op.kinds.map .ofKind) := by
  have h := of_current h
  cases hop : Comparison.ofToken? s.stream.current with
  | some op =>
    rw [hop] at h
    have h := of_step h
    obtain ⟨rfl, rfl⟩ := of_pure h
    obtain ⟨x, hkinds, hx⟩ := kinds_of_comparison hop
    have hfits : s.stream.current.fits (.type (.symbol x)) = true := hx
    have htook : s.Took s.stepped [.symbol x] := took_stepped hfits
    refine .inr ⟨op, rfl, ?_⟩
    rw [hkinds]
    exact htook
  | none =>
    rw [hop] at h
    dsimp only at h
    split at h
    · next hin =>
      have hfits : s.stream.current.fits (.name "in") = true := hin
      have h := of_step h
      obtain ⟨rfl, rfl⟩ := of_pure h
      exact .inr ⟨.isIn, rfl, took_stepped hfits⟩
    · have h := of_look h
      split at h
      · next hboth =>
        obtain ⟨hnot, hin⟩ := Bool.and_eq_true_iff.1 hboth
        have hfits : s.stepped.stream.current.fits (.name "in") = true := hin
        have h := of_skipTwo h
        obtain ⟨rfl, rfl⟩ := of_pure h
        exact .inr ⟨.notIn, rfl, (took_stepped hfits).behindWord hnot⟩
      · obtain ⟨rfl, rfl⟩ := of_pure h
        exact .inl ⟨rfl, rfl⟩

/-- **The links of a chain of comparisons**, with the line of the token behind them. -/
theorem took_operands (hg : g.Forming) {filters : Bool} {x : List (Operand Expr) × Nat}
    (h : parseOperands g filters line s = .ok x t) :
    s.Took t (x.1.flatMap Operand.pieces) ∧ (x.1 ≠ [] → x.2 = t.stream.current.line) := by
  refine repeatFrom_rule
    (fun x u => s.Took u (x.1.flatMap Operand.pieces) ∧ (x.1 ≠ [] → x.2 = u.stream.current.line))
    (fun x u => s.Took u (x.1.flatMap Operand.pieces) ∧ (x.1 ≠ [] → x.2 = u.stream.current.line))
    ?_ ⟨.nil s, fun h => absurd rfl h⟩ h
  rintro ⟨operands, line⟩ u z v ⟨hall, hline⟩ hz
  obtain ⟨o, w, hw, hnext⟩ := bind_eq_ok.1 hz
  rcases took_comparison hw with ⟨rfl, rfl⟩ | ⟨op, rfl, hop⟩
  · obtain ⟨rfl, rfl⟩ := of_pure hnext
    exact ⟨hall, hline⟩
  · obtain ⟨e, w', he, hnext⟩ := bind_eq_ok.1 hnext
    have hnext := of_current hnext
    obtain ⟨rfl, rfl⟩ := of_pure hnext
    refine ⟨?_, fun _ => rfl⟩
    show s.Took v ((operands ++ [(⟨op, e⟩ : Operand Expr)]).flatMap Operand.pieces)
    rw [List.flatMap_append, List.flatMap_singleton]
    exact hall.append (hop.append (took_sum hg filters _ _ _ he))

/-- **Comparisons** stand on the line of the token behind them. -/
theorem took_compare (hg : g.Forming) (filters : Bool) (s : ParserState) (e : Expr) (t : ParserState)
    (h : parseCompare g filters s = .ok e t) : s.Took t [.expr e] := by
  have h := of_current h
  obtain ⟨e', u, hu, h⟩ := bind_eq_ok.1 h
  obtain ⟨⟨operands, line⟩, v, hv, h⟩ := bind_eq_ok.1 h
  obtain ⟨he, rfl⟩ := of_pure h
  obtain ⟨hall, hline⟩ := took_operands hg hv
  have hfirst := took_sum hg filters _ _ _ hu
  cases operands with
  | nil =>
    subst he
    have htook := hfirst.append hall
    exact htook
  | cons o os =>
    subst he
    obtain rfl : line = t.stream.current.line := hline nofun
    exact (hfirst.append hall).expr (.compare e' (o :: os) _) (.behind rfl)

theorem took_negation (hg : g.Forming) (filters : Bool) (s : ParserState) (e : Expr) (t : ParserState)
    (h : parseNegation g filters s = .ok e t) : s.Took t [.expr e] := by
  have h := of_current h
  split at h
  · next hnot =>
    have h := of_step h
    obtain ⟨e', u, hu, h⟩ := bind_eq_ok.1 h
    obtain ⟨rfl, rfl⟩ := of_pure h
    have hfits : s.stream.current.fits (.name "not") = true := hnot
    exact took_prefix hfits (hg.negation _ _ _ _ hu) (.not e' _) rfl
  · exact took_compare hg filters s e t h

/-- An operator that is a word. -/
theorem named_build {word : String} {make : Expr → Expr → Nat → Expr}
    (hmake : ∀ left right line, (make left right line).line = line ∧
      (make left right line).Layout [.expr left, .word word, .expr right]) (tok : Token)
    (build : Expr → Expr → Nat → Expr)
    (h : (if tok.isName word then some make else none) = some build) :
    ∃ rule : TokenRule, rule.Solid ∧ tok.fits rule = true ∧ ∀ left right line,
      (build left right line).line = line ∧
        (build left right line).Layout [.expr left, .token rule, .expr right] := by
  split at h
  · next hword =>
    obtain rfl := Option.some.inj h
    exact ⟨.name word, inferInstance, hword, hmake⟩
  · nomatch h

theorem took_and (hg : g.Forming) (filters : Bool) (s : ParserState) (e : Expr) (t : ParserState)
    (h : parseAnd g filters s = .ok e t) : s.Took t [.expr e] :=
  took_leftChain (took_negation hg filters)
    (named_build fun left right l => ⟨rfl, .and left right l⟩) h

theorem took_or (hg : g.Forming) (filters : Bool) (s : ParserState) (e : Expr) (t : ParserState)
    (h : parseOr g filters s = .ok e t) : s.Took t [.expr e] :=
  took_leftChain (took_and hg filters)
    (named_build fun left right l => ⟨rfl, .or left right l⟩) h

/-- **Conditionals** stand on the line of their first token, or on that of their `if`. -/
theorem took_conditional (hg : g.Forming) (filters : Bool) (s : ParserState) (e : Expr)
    (t : ParserState) (h : parseConditional g filters s = .ok e t) : s.Took t [.expr e] := by
  have h := of_current h
  obtain ⟨first, u, hu, h⟩ := bind_eq_ok.1 h
  refine repeatFrom_rule (fun x u => s.Took u [.expr x.1] ∧
      (x.2 = s.stream.current.line ∨ x.2 = u.stream.current.line))
    (fun e u => s.Took u [.expr e]) ?_ ⟨took_or hg filters _ _ _ hu, .inl rfl⟩ h
  rintro ⟨yes, line⟩ u z v ⟨hyes, hline⟩ hz
  rcases of_skipIf hz with ⟨hif, hz⟩ | hz
  · obtain ⟨cond, w, hcond, hz⟩ := bind_eq_ok.1 hz
    obtain ⟨no, w', hno, hz⟩ := bind_eq_ok.1 hz
    have hz := of_current hz
    obtain ⟨rfl, rfl⟩ := of_pure hz
    have htest := (took_or hg filters _ _ _ hcond).behind hif
    have hlineIn (hsuf : v.stream.tokens <:+ u.stepped.stream.tokens) :
        LineIn s.stream.tokens v.stream.tokens line := by
      have hend := Token.isEnd_of_fits hif
      rcases hline with rfl | rfl
      · exact lineIn_start hyes.suffix hend hsuf
      · exact hyes.lineIn_of_suffix (lineIn_first hend hsuf)
    have hcond := took_or hg filters _ _ _ hcond
    refine ⟨?_, .inr rfl⟩
    rcases of_skipIf hno with ⟨helse, hno⟩ | hno
    · obtain ⟨e, w'', he, hno⟩ := bind_eq_ok.1 hno
      obtain ⟨rfl, rfl⟩ := of_pure hno
      have hrest := (hg.expression true true _ _ _ he).behind helse
      have hline := hlineIn (hrest.suffix.trans hcond.suffix)
      exact ((hyes.append htest).append hrest).exprIn (.conditionalElse cond yes e line) hline
    · obtain ⟨rfl, rfl⟩ := of_pure hno
      exact (hyes.append htest).exprIn (.conditional cond yes line) (hlineIn hcond.suffix)
  · obtain ⟨rfl, rfl⟩ := of_pure hz
    exact hyes

/-- **Expressions.** -/
theorem took_expression (hg : g.Forming) (conditional filters : Bool)
    (h : parseExpression g conditional filters s = .ok e t) : s.Took t [.expr e] := by
  unfold parseExpression at h
  split at h
  · exact took_conditional hg filters s e t h
  · exact took_or hg filters s e t h

/-! ### Tuples and targets -/

/-- **The items of a tuple**: none, one without a comma, or any number with one. -/
inductive Grammar.TupleItems.Took (line : Nat) (s : ParserState) : TupleItems → ParserState → Prop where
  | nothing : Took line s { line } s
  | single {e : Expr} {l : Nat} {t : ParserState} (h : s.Took t [.expr e]) :
      Took line s ⟨[e], false, l⟩ t
  | several {es : List Expr} {l : Nat} {ps : List Piece} {t : ParserState}
      (hseries : Series .comma Expr.piece ps es) (h : s.Took t ps)
      (hline : LineIn s.stream.tokens t.stream.tokens l) : Took line s ⟨es, true, l⟩ t

theorem took_tupleItems {item : TupleItem} {ends : List TokenRule} {read : TupleItems}
    (hitem : ∀ s e t, parseTupleItem g item s = .ok e t → s.Took t [.expr e])
    (h : parseTupleItems g item ends line s = .ok read t) : read.Took line s t := by
  -- Between two rounds, nothing has been taken yet, or the next token is the comma of the line.
  refine repeatFrom_rule
    (fun read u => read = { line } ∧ u = s ∨ ∃ e es ps, read = ⟨es ++ [e], true, u.stream.current.line⟩ ∧
      Series .comma Expr.piece ps (es ++ [e]) ∧ s.Took u ps)
    (fun read t => read.Took line s t) ?_ (.inl ⟨rfl, rfl⟩) h
  intro read u z v hread hz
  obtain ⟨_, w, hsep, hz⟩ := bind_eq_ok.1 hz
  obtain ⟨ps, hps, htook, hfirst⟩ : ∃ ps, Series .comma Expr.piece ps read.items ∧ s.Took w ps ∧
      (read = { line } ∧ w = s ∨
        read.isTuple = true ∧ LineIn s.stream.tokens w.stream.tokens read.line) := by
    rcases hread with ⟨rfl, rfl⟩ | ⟨e, es, ps, rfl, hps, htook⟩
    · obtain ⟨-, rfl⟩ := of_pure hsep
      exact ⟨[], .nil, .nil _, .inl ⟨rfl, rfl⟩⟩
    · have hneeded : (!(es ++ [e]).isEmpty) = true := by simp
      dsimp only at hsep
      rw [hneeded] at hsep
      obtain ⟨hcomma, hsep⟩ := of_expect hsep
      obtain ⟨-, rfl⟩ := of_pure hsep
      have hline := lineIn_first (Token.isEnd_of_fits hcomma) (List.suffix_refl _)
      exact ⟨_, hps.separator, htook.closed hcomma, .inr ⟨rfl, htook.lineIn_of_suffix hline⟩⟩
  have hz := of_current hz
  split at hz
  · obtain ⟨rfl, rfl⟩ := of_pure hz
    rcases hfirst with ⟨rfl, rfl⟩ | ⟨htuple, hline⟩
    · exact .nothing
    · obtain ⟨items, isTuple, l⟩ := read
      obtain rfl : isTuple = true := htuple
      exact .several hps htook hline
  · obtain ⟨e, w', he, hz⟩ := bind_eq_ok.1 hz
    have hone := hitem _ _ _ he
    have hz := of_current hz
    split at hz
    · obtain ⟨rfl, rfl⟩ := of_pure hz
      exact .inr ⟨e, read.items, _, rfl, hps.item e, htook.append hone⟩
    · obtain ⟨rfl, rfl⟩ := of_pure hz
      rcases hfirst with ⟨rfl, rfl⟩ | ⟨htuple, hline⟩
      · exact .single hone
      · obtain ⟨items, isTuple, l⟩ := read
        obtain rfl : isTuple = true := htuple
        exact .several (hps.item e) (htook.append hone) (hline.mono (List.suffix_refl _) hone.suffix)

/-- **Tuples.** Only between parentheses nothing has to be taken. -/
theorem took_tuple {item : TupleItem} {ends : List TokenRule} {parentheses : Bool}
    (hitem : ∀ s e t, parseTupleItem g item s = .ok e t → s.Took t [.expr e])
    (h : parseTuple g item ends parentheses s = .ok e t) :
    s.Took t [.expr e] ∨
      s = t ∧ e = .tuple [] .load s.stream.current.line ∧ parentheses = true := by
  obtain ⟨read, hread, he⟩ := parseTuple_eq_ok.1 h
  cases took_tupleItems hitem hread with
  | nothing =>
    cases parentheses with
    | true => exact .inr ⟨rfl, (Option.some.inj he).symm, rfl⟩
    | false => nomatch he
  | single htook => exact .inl (Option.some.inj he ▸ htook)
  | several hps htook hline =>
    obtain rfl := Option.some.inj he
    exact .inl (htook.exprIn (.tuple hps .load _) hline)

theorem took_tupleItem (hg : g.Forming) (item : TupleItem) (s : ParserState) (e : Expr)
    (t : ParserState) (h : parseTupleItem g item s = .ok e t) : s.Took t [.expr e] := by
  cases item with
  | primary => exact took_primary hg h
  | expression conditional => exact took_expression hg conditional true h

/-- A tuple with something in it. -/
theorem took_fullTuple (hg : g.Forming) {item : TupleItem} {ends : List TokenRule}
    (h : parseTuple g item ends false s = .ok e t) : s.Took t [.expr e] :=
  (took_tuple (took_tupleItem hg item) h).resolve_right nofun

/-- **What stands in parentheses**, which can be nothing. -/
theorem took_group (hg : g.Forming) (h : parseTuple g (.expression true) [] true s = .ok e t) :
    s.Took t [.expr e] ∨ s = t ∧ e = .tuple [] .load s.stream.current.line :=
  (took_tuple (took_tupleItem hg _) h).imp_right fun hnothing => ⟨hnothing.1, hnothing.2.1⟩

theorem took_anyTuple (hg : g.Forming) (h : parseAnyTuple g s = .ok e t) : s.Took t [.expr e] :=
  took_fullTuple hg h

/-- An expression that is used differently. -/
theorem ParserState.Took.setContext (h : s.Took t [.expr e]) (c : Context) :
    s.Took t [.expr (e.setContext c)] :=
  ⟨h.forms.setContext c, h.madeUp⟩

theorem of_requireAssignable {x : Expr} (h : requireAssignable e s = .ok x t) : x = e ∧ t = s := by
  unfold requireAssignable at h
  split at h
  · exact of_pure h
  · exact absurd h (failAt_ne_ok _ _)

/-- **Names that are assigned to.** -/
theorem took_targetName (h : parseTargetName s = .ok e t) :
    ∃ text, e = .name text .store s.stream.current.line ∧
      s.stream.current.fits (.name text) = true ∧ t = s.stepped := by
  obtain ⟨hname, h⟩ := of_expect h
  obtain ⟨rfl, rfl⟩ := of_requireAssignable h
  obtain ⟨text, hk⟩ := TokenRule.exists_of_anyName hname
  have htext : s.stream.current.nameText = text := by
    rw [Token.nameText, Token.name?_eq_some_iff.2 hk]
    rfl
  exact ⟨text, by rw [htext], Token.isName_iff.2 hk, rfl⟩

/-- **Targets.** -/
theorem took_target (hg : g.Forming) {withTuple : Bool} {ends : List TokenRule}
    (h : parseTarget g withTuple ends s = .ok e t) : s.Took t [.expr e] := by
  cases withTuple with
  | true =>
    obtain ⟨e', u, hu, h⟩ := bind_eq_ok.1 h
    obtain ⟨rfl, rfl⟩ := of_requireAssignable h
    exact (took_fullTuple hg hu).setContext .store
  | false =>
    obtain ⟨e', u, hu, h⟩ := bind_eq_ok.1 h
    obtain ⟨rfl, rfl⟩ := of_requireAssignable h
    exact (took_primary hg hu).setContext .store

/-! ### Grammars -/

variable {env : Environment}

/-- **The bounded grammars** form their expressions, since their references are to those of smaller
bounds. -/
theorem forming_below (env : Environment) (n : Nat) : (below env n).Forming := by
  induction n using Nat.strongRecOn with
  | _ n ih =>
    refine { expression := ?_, negation := ?_, signed := ?_, group := ?_ }
    · intro conditional filters s e t h
      rw [below_expression] at h
      obtain ⟨hlt, h⟩ :=
        guarded_eq_ok (p := fun j => parseExpression (below env j) conditional filters) h
      exact took_expression (ih _ hlt) conditional filters h
    · intro filters s e t h
      rw [below_negation] at h
      obtain ⟨hlt, h⟩ := guarded_eq_ok (p := fun j => parseNegation (below env j) filters) h
      exact took_negation (ih _ hlt) filters s e t h
    · intro s e t h
      rw [below_signed] at h
      obtain ⟨hlt, h⟩ := guarded_eq_ok (p := fun j => parseSigned (below env j) false) h
      exact took_signed (ih _ hlt) false s e t h
    · intro s e t h
      rw [below_group] at h
      obtain ⟨hlt, h⟩ :=
        guarded_eq_ok (p := fun j => parseTuple (below env j) (.expression true) [] true) h
      exact took_group (ih _ hlt) h

/-- The grammar of an environment. -/
theorem forming_grammar (env : Environment) : env.grammar.Forming := by
  have hforming (n : Nat) := forming_below env n
  refine { expression := ?_, negation := ?_, signed := ?_, group := ?_ }
  · exact fun conditional filters s e t h => took_expression (hforming _) conditional filters h
  · exact fun filters s e t h => took_negation (hforming _) filters s e t h
  · exact fun s e t h => took_signed (hforming _) false s e t h
  · exact fun s e t h => took_group (hforming _) h

end LiquidTemplate
