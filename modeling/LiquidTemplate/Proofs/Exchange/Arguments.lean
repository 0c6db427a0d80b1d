import LiquidTemplate.Proofs.Exchange.Streams

/-!
# Arguments before another end

Each production goes abreast on two streams if those productions do that it refers to. Arguments
behind a colon end with their tag, so that they show the exchange of its end, unless it is settled.

* `Grammar.Simulates`: a grammar whose productions are simulated by those of another one.
* `Exchange.SameArguments`: the same arguments, as far as they are looked at.
* `sim_arguments`, `sim_call`, `sim_filters`: the productions with arguments.
-/

namespace LiquidTemplate

open LiquidTemplate.Parser LiquidTemplate.Grammar

/-- **Simulated grammars.** What stands between parentheses is simulated where a closing parenthesis
follows, and a range literal where it weighs no more than `w`. -/
structure Grammar.Simulates (x : Exchange) (w : Nat) (g g' : Grammar) : Prop where
  expression : ∀ conditional filters {s s'}, x.Abreast w s s' →
    Sim x w (g.expression conditional filters) (g'.expression conditional filters) x.Same s s'
  negation : ∀ filters {s s'}, x.Abreast w s s' →
    Sim x w (g.negation filters) (g'.negation filters) x.Same s s'
  signed : ∀ {s s'}, x.Abreast w s s' → Sim x w g.signed g'.signed x.Same s s'
  group : ∀ {s s' e t}, x.Abreast w s s' → g.group s = .ok e t →
    t.stream.current.isSymbol .rParen = true →
    ∃ e' t', g'.group s' = .ok e' t' ∧ x.Same e e' ∧ x.Abreast w t t'
  range : ∀ {tok tok' start stop s s'}, tok.kind = .range start stop → tok.weight ≤ w →
    tok.seen x.lines = tok'.seen x.lines → x.Abreast w s s' →
    Sim x w (parseRange g tok start stop) (parseRange g' tok' start stop) x.Same s s'
  stuck : ∀ conditional filters {s}, s.stream.current.IsMark →
    Stuck (g.expression conditional filters) s

variable {x : Exchange} {w : Nat} {g g' : Grammar} {s s' : ParserState} {e e' : Expr}
  {line line' : Nat}

namespace Exchange

/-- **The same expressions.** -/
def SameList (x : Exchange) (es es' : List Expr) : Prop :=
  es.map (Expr.seen x.lines) = es'.map (Expr.seen x.lines)

/-- **The same expression**, if there is one. -/
def SameOption (x : Exchange) (e e' : Option Expr) : Prop :=
  e.map (Expr.seen x.lines) = e'.map (Expr.seen x.lines)

/-- **The same arguments.** -/
def SameArguments (x : Exchange) (a a' : Arguments Expr) : Prop :=
  a.seen x.lines = a'.seen x.lines

/-- **The same line.** -/
def SameLine (x : Exchange) (line line' : Nat) : Prop :=
  seenLine x.lines line = seenLine x.lines line'

theorem SameLine.seen (h : x.SameLine line line') :
    seenLine x.lines line = seenLine x.lines line' :=
  h

theorem SameList.append {es es' : List Expr} (h : x.SameList es es') (he : x.Same e e') :
    x.SameList (es ++ [e]) (es' ++ [e']) := by
  unfold SameList at h ⊢
  rw [List.map_append, List.map_append, h, List.map_singleton, List.map_singleton, he]

theorem SameList.isEmpty {es es' : List Expr} (h : x.SameList es es') :
    es.isEmpty = es'.isEmpty := by
  have hempty := congrArg List.isEmpty h
  rwa [List.isEmpty_map, List.isEmpty_map] at hempty

theorem SameList.seen {es es' : List Expr} (h : x.SameList es es') :
    es.map (Expr.seen x.lines) = es'.map (Expr.seen x.lines) :=
  h

theorem SameOption.seen {e e' : Option Expr} (h : x.SameOption e e') :
    e.map (Expr.seen x.lines) = e'.map (Expr.seen x.lines) :=
  h

theorem SameArguments.seen {a a' : Arguments Expr} (h : x.SameArguments a a') :
    a.seen x.lines = a'.seen x.lines :=
  h

theorem Same.some (h : x.Same e e') : x.SameOption (some e) (some e') :=
  congrArg Option.some h

theorem SameArguments.isEmpty {a a' : Arguments Expr} (h : x.SameArguments a a') :
    a.keywords.isEmpty = a'.keywords.isEmpty ∧ a.spread.isNone = a'.spread.isNone ∧
      a.spreadKeywords.isNone = a'.spreadKeywords.isNone := by
  obtain ⟨_, hkeywords, hspread, hspreadKeywords⟩ := Arguments.mk.inj h
  refine ⟨?_, ?_, ?_⟩
  · have hlength := congrArg List.length hkeywords
    rw [List.length_map, List.length_map] at hlength
    cases hk : a.keywords <;> cases hk' : a'.keywords <;> simp_all
  · simpa using congrArg Option.isNone hspread
  · simpa using congrArg Option.isNone hspreadKeywords

end Exchange

/-! ### Arguments -/

/-- What is done with arguments that are in order. -/
theorem sim_require {α : Type} {rel : α → α → Prop} {f f' : Unit → Parser α} {ok ok' : Bool}
    (hok : ok = ok') (h : Sim x w (f ()) (f' ()) rel s s') :
    Sim x w (require ok line >>= f) (require ok' line' >>= f') rel s s' := by
  subst hok
  cases ok with
  | true => exact h
  | false => exact .stuck fun _ _ hy => nomatch hy

theorem stuck_require {α : Type} {f : Unit → Parser α} {ok : Bool} (h : Stuck (f ()) s) :
    Stuck (require ok line >>= f) s := by
  cases ok with
  | true => exact h
  | false => exact stuck_failAt.bind

/-- A name before an equals sign is seen on both sides. -/
theorem sim_keywordName (h : x.Inside w s s') :
    s.stream.current.name? = s'.stream.current.name? ∧
      s.stream.look.isSymbol .assign = s'.stream.look.isSymbol .assign := by
  constructor
  · rw [Token.name?, Token.name?, h.kind]
  · rw [TokenStream.look_eq_current_next, TokenStream.look_eq_current_next]
    exact h.next.symbol .assign (by rintro ⟨⟩) (by rintro ⟨⟩)

namespace Exchange.SameArguments

variable {args args' : Arguments Expr}

theorem positional (ha : x.SameArguments args args') (he : x.Same e e') :
    x.SameArguments { args with positional := args.positional ++ [e] }
      { args' with positional := args'.positional ++ [e'] } := by
  obtain ⟨hpositional, hkeywords, hspread, hspreadKeywords⟩ := Arguments.mk.inj ha
  simp only [SameArguments, Arguments.seen, List.map_append, List.map_cons, List.map_nil,
    hpositional, hkeywords, hspread, hspreadKeywords, he.seen]

theorem keyword (ha : x.SameArguments args args') (he : x.Same e e') (key : String) :
    x.SameArguments { args with keywords := args.keywords ++ [⟨key, e, e.line⟩] }
      { args' with keywords := args'.keywords ++ [⟨key, e', e'.line⟩] } := by
  obtain ⟨hpositional, hkeywords, hspread, hspreadKeywords⟩ := Arguments.mk.inj ha
  simp only [SameArguments, Arguments.seen, List.map_append, List.map_cons, List.map_nil,
    hpositional, hkeywords, hspread, hspreadKeywords, he.seen, Expr.seenLine_line he]

theorem spread (ha : x.SameArguments args args') (he : x.Same e e') :
    x.SameArguments { args with spread := some e } { args' with spread := some e' } := by
  obtain ⟨hpositional, hkeywords, _, hspreadKeywords⟩ := Arguments.mk.inj ha
  simp only [SameArguments, Arguments.seen, hpositional, hkeywords, hspreadKeywords,
    Option.map_some, he.seen]

theorem spreadKeywords (ha : x.SameArguments args args') (he : x.Same e e') :
    x.SameArguments { args with spreadKeywords := some e }
      { args' with spreadKeywords := some e' } := by
  obtain ⟨hpositional, hkeywords, hspread, _⟩ := Arguments.mk.inj ha
  simp only [SameArguments, Arguments.seen, hpositional, hkeywords, hspread, Option.map_some,
    he.seen]

end Exchange.SameArguments

section Arguments

variable {form : ArgumentForm} {args args' : Arguments Expr}

theorem sim_plainArgument (hg : g.Simulates x w g') (ha : x.SameArguments args args')
    (h : x.Abreast w s s') :
    Sim x w (parsePlainArgument g form line args) (parsePlainArgument g' form line' args')
      x.SameArguments s s' := by
  obtain ⟨hkeywords, hspread, hspreadKeywords⟩ := ha.isEmpty
  refine sim_require (by rw [hspread, hspreadKeywords]) ?_
  have hpositional : Sim x w (do
        require args.keywords.isEmpty line
        let value ← g.expression true form.filters
        return { args with positional := args.positional ++ [value] })
      (do
        require args'.keywords.isEmpty line'
        let value ← g'.expression true form.filters
        return { args' with positional := args'.positional ++ [value] })
      x.SameArguments s s' :=
    sim_require hkeywords <| (hg.expression true form.filters h).bind fun e e' s s' he h =>
      Sim.pure h (ha.positional he)
  refine Sim.see (Sim.peek ?_)
  rcases h.inside_or with hin | ⟨hs, hs'⟩
  · obtain ⟨hname, hassign⟩ := sim_keywordName hin
    rw [← hname, ← hassign]
    cases hkey : s.stream.current.name? with
    | none => exact hpositional
    | some key =>
      cases hlook : s.stream.look.isSymbol .assign with
      | false => exact hpositional
      | true =>
        have hin' : x.Inside w s.stepped s'.stepped := by
          rw [TokenStream.look_eq_current_next] at hlook
          exact hin.next.inside (TokenRule.noMark_symbol .assign) hlook
        refine Sim.skipTwo ?_
        exact (hg.expression true form.filters hin'.next).bind fun e e' s s' he h =>
          Sim.pure h (ha.keyword he key)
  · refine .stuck ?_
    rw [hs, x.isMark.name?_eq_none]
    exact stuck_require (hg.stuck true form.filters (hs ▸ x.isMark)).bind

theorem sim_argument (hg : g.Simulates x w g') (ha : x.SameArguments args args')
    (h : x.Abreast w s s') :
    Sim x w (parseArgument g form line args) (parseArgument g' form line' args')
      x.SameArguments s s' := by
  obtain ⟨hkeywords, hspread, hspreadKeywords⟩ := ha.isEmpty
  refine Sim.symbol h (by decide) (by decide) (fun hin _ => ?_) ?_
  · refine sim_require (by rw [hspread, hspreadKeywords]) (Sim.drop ?_)
    exact (hg.expression true true hin.next).bind fun e e' s s' he h => Sim.pure h (ha.spread he)
  · refine Sim.symbol h (by decide) (by decide) (fun hin _ => ?_) (sim_plainArgument hg ha h)
    refine sim_require hspreadKeywords (Sim.drop ?_)
    exact (hg.expression true true hin.next).bind fun e e' s s' he h =>
      Sim.pure h (ha.spreadKeywords he)

/-- No argument begins at a mark. -/
theorem stuck_argument (hg : g.Simulates x w g') (hs : s.stream.current.IsMark) :
    Stuck (parseArgument g form line args) s := by
  refine Stuck.symbol ?_
  rw [hs.not_symbol]
  refine Stuck.symbol ?_
  rw [hs.not_symbol]
  refine stuck_require (Stuck.see (Stuck.peek ?_))
  rw [hs.name?_eq_none]
  exact stuck_require (hg.stuck true form.filters hs).bind

/-- What is done behind a comma that may be needed. -/
theorem sim_separator {α : Type} {rel : α → α → Prop} {f f' : Unit → Parser α} (needed : Bool)
    (h : x.Abreast w s s') (hfirst : needed = false → Sim x w (f ()) (f' ()) rel s s')
    (hlater : x.Inside w s s' → s.stream.current.kind = .symbol .comma →
      Sim x w (f ()) (f' ()) rel s.stepped s'.stepped) :
    Sim x w (parseSeparator needed >>= f) (parseSeparator needed >>= f') rel s s' := by
  cases needed with
  | false => exact hfirst rfl
  | true =>
    have hcomma : Sim x w (expectSymbol .comma >>= fun _ => f ())
        (expectSymbol .comma >>= fun _ => f' ()) rel s s' :=
      Sim.demand h (TokenRule.noMark_symbol .comma) fun hin hfits =>
        hlater hin (Token.isSymbol_iff.1 hfits)
    simpa [parseSeparator, bind_assoc] using hcomma

/-- No comma stands at a mark. -/
theorem stuck_separator {α : Type} {f : Unit → Parser α} (needed : Bool)
    (hs : s.stream.current.IsMark) (h : needed = false → Stuck (f ()) s) :
    Stuck (parseSeparator needed >>= f) s := by
  cases needed with
  | false => exact h rfl
  | true =>
    have hcomma : Stuck (expectSymbol .comma) s := stuck_expect (hs.not_symbol .comma)
    exact hcomma.bind.bind

/-- **Closed argument lists.** What closes one before the old end closes it before the new one, and
only at the old end it can be the other way round. -/
theorem isClosedBy_abreast (hform : form = .colon → x.Settled) (h : x.Abreast w s s') :
    form.isClosedBy s.stream.current = form.isClosedBy s'.stream.current ∨
      form.isClosedBy s.stream.current = false ∧ s.stream.current.IsMark := by
  rcases h.inside_or with h | ⟨hs, hs'⟩
  · refine .inl ?_
    cases form <;> simp only [ArgumentForm.isClosedBy, Token.isSymbol, Token.isMark, Token.type, h.kind]
  · rw [hs, hs']
    cases form with
    | parentheses => exact .inr ⟨x.isMark.not_symbol .rParen, x.isMark⟩
    | colon =>
      cases hold : ArgumentForm.colon.isClosedBy x.old with
      | false => exact .inr ⟨rfl, x.isMark⟩
      | true =>
        refine .inl ?_
        have hends : x.old.EndsTag := by
          simpa [ArgumentForm.isClosedBy, x.isMark.not_symbol, Token.EndsTag] using hold
        rcases hform rfl hends with hnew | hnew <;> simp [ArgumentForm.isClosedBy, hnew]

theorem sim_nextArgument (hg : g.Simulates x w g') (hform : form = .colon → x.Settled)
    (ha : x.SameArguments args args') (later : Bool) (h : x.Abreast w s s') :
    Sim x w (parseNextArgument g form line (args, later))
      (parseNextArgument g' form line' (args', later))
      (Sum.LiftRel (fun y y' => x.SameArguments y.1 y'.1 ∧ y.2 = y'.2) x.SameArguments) s s' := by
  refine Sim.see ?_
  rcases isClosedBy_abreast hform h with hclosed | ⟨hopen, hmark⟩
  · refine Sim.ite (by rw [hclosed]) (fun _ => Sim.pure h (.inr ha)) fun hopen => ?_
    have hrest {s s' : ParserState} (h : x.Abreast w s s') :
        Sim x w (do
            if form.isClosedBy (← current) then
              return .inr args
            else
              let args ← parseArgument g form line args
              return .inl (args, true))
          (do
            if form.isClosedBy (← current) then
              return .inr args'
            else
              let args ← parseArgument g' form line' args'
              return .inl (args, true))
          (Sum.LiftRel (fun y y' => x.SameArguments y.1 y'.1 ∧ y.2 = y'.2) x.SameArguments) s s' := by
      refine Sim.see ?_
      rcases isClosedBy_abreast hform h with hclosed | ⟨hopen, hmark⟩
      · refine Sim.ite (by rw [hclosed]) (fun _ => Sim.pure h (.inr ha)) fun _ => ?_
        exact (sim_argument hg ha h).bind fun y y' s s' hy h => Sim.pure h (.inl ⟨hy, rfl⟩)
      · rw [if_neg (by simp [hopen])]
        exact .stuck (stuck_argument hg hmark).bind
    exact sim_separator later h (fun _ => hrest h) fun hin _ => hrest hin.next
  · refine .stuck ?_
    rw [if_neg (by simp [hopen])]
    refine stuck_separator later hmark fun _ => Stuck.see ?_
    rw [if_neg (by simp [hopen])]
    exact (stuck_argument hg hmark).bind

theorem sim_argumentList (hg : g.Simulates x w g') (hform : form = .colon → x.Settled)
    (h : x.Abreast w s s') :
    Sim x w (parseArgumentList g form line) (parseArgumentList g' form line') x.SameArguments
      s s' := by
  have hnone : x.SameArguments {} {} := rfl
  refine Sim.loop (fun y y' => x.SameArguments y.1 y'.1 ∧ y.2 = y'.2) ⟨hnone, rfl⟩ h ?_
  rintro ⟨args, later⟩ ⟨args', later'⟩ s s' ⟨ha, hlater⟩ h
  obtain rfl : later = later' := hlater
  exact sim_nextArgument hg hform ha later h

/-- The token that opens an argument list. -/
theorem kind_of_ofToken? {t : Token} (h : ArgumentForm.ofToken? t = some form) :
    form = .parentheses ∧ t.kind = .symbol .lParen ∨ form = .colon ∧ t.kind = .symbol .colon := by
  unfold ArgumentForm.ofToken? at h
  split at h
  · next hparen => exact .inl ⟨(Option.some.inj h).symm, Token.isSymbol_iff.1 hparen⟩
  · split at h
    · next hcolon => exact .inr ⟨(Option.some.inj h).symm, Token.isSymbol_iff.1 hcolon⟩
    · nomatch h

/-- An argument list opens on both sides, before the ends. -/
theorem ofToken?_abreast (h : x.Abreast w s s') :
    ArgumentForm.ofToken? s.stream.current = ArgumentForm.ofToken? s'.stream.current := by
  unfold ArgumentForm.ofToken?
  rw [h.symbol .lParen nofun nofun, h.symbol .colon nofun nofun]

/-- **Argument lists.** -/
theorem sim_arguments (hg : g.Simulates x w g')
    (hcolon : s.stream.current.kind = .symbol .colon → x.Settled) (h : x.Abreast w s s') :
    Sim x w (parseArguments g) (parseArguments g') x.SameArguments s s' := by
  refine Sim.see ?_
  rw [← ofToken?_abreast h]
  cases hopens : ArgumentForm.ofToken? s.stream.current with
  | none => exact .stuck stuck_failAt
  | some form =>
    have hin : x.Inside w s s' := by
      rcases kind_of_ofToken? hopens with ⟨_, hk⟩ | ⟨_, hk⟩ <;>
        exact h.inside (TokenRule.noMark_symbol _) (Token.isSymbol_iff.2 hk)
    have hform : form = .colon → x.Settled := by
      rintro rfl
      rcases kind_of_ofToken? hopens with ⟨hno, _⟩ | ⟨_, hk⟩
      · nomatch hno
      · exact hcolon hk
    refine Sim.drop fun y t hy => ?_
    obtain ⟨args, u, hu, hy⟩ := bind_eq_ok.1 hy
    obtain ⟨args', u', hu', ha, h⟩ := sim_argumentList hg hform hin.next args u hu
    have hrest : Sim x w (do
          if form = .parentheses then step
          return args)
        (do
          if form = .parentheses then step
          return args') x.SameArguments u u' := by
      cases form with
      | colon => exact Sim.pure h ha
      | parentheses =>
        have hclosed := isClosedBy_of_argumentList hu
        have hin := h.inside (TokenRule.noMark_symbol .rParen) hclosed
        exact Sim.drop (Sim.pure hin.next ha)
    obtain ⟨y', t', hy', hrel, ht⟩ := hrest y t hy
    exact ⟨y', t', bind_eq_ok.2 ⟨args', u', hu', hy'⟩, hrel, ht⟩

/-- Arguments in parentheses. -/
theorem sim_inParens (hg : g.Simulates x w g') (hparen : s.stream.current.isSymbol .lParen = true)
    (h : x.Abreast w s s') :
    Sim x w (parseArguments g) (parseArguments g') x.SameArguments s s' := by
  refine sim_arguments hg (fun hcolon => ?_) h
  rw [Token.isSymbol_iff.1 hparen] at hcolon
  nomatch hcolon

theorem sim_optionalArguments (hg : g.Simulates x w g')
    (hcolon : s.stream.current.kind = .symbol .colon → x.Settled) (h : x.Abreast w s s') :
    Sim x w (parseOptionalArguments g) (parseOptionalArguments g') x.SameArguments s s' := by
  refine Sim.see (Sim.ite (by rw [ofToken?_abreast h]) (fun _ => ?_) fun _ => Sim.pure h rfl)
  exact sim_arguments hg hcolon h

end Arguments

/-! ### Calls and filters -/

theorem sim_call (hg : g.Simulates x w g') (he : x.Same e e')
    (hparen : s.stream.current.isSymbol .lParen = true) (h : x.Abreast w s s') :
    Sim x w (parseCall g e) (parseCall g' e') x.Same s s' := by
  refine Sim.see ((sim_inParens hg hparen h).bind fun args args' t t' ha ht => Sim.pure ht ?_)
  rw [Exchange.Same, Expr.seen_call, Expr.seen_call, he.seen, ha.seen, h.line]

theorem sim_dottedName (first : String) (h : x.Abreast w s s') :
    Sim x w (parseDottedName first) (parseDottedName first) (fun name name' => name = name')
      s s' := by
  refine Sim.loop (fun name name' => name = name') rfl h ?_
  rintro name _ s s' rfl h
  refine Sim.skips h (TokenRule.noStop_symbol nofun nofun) (fun hin _ => ?_) ?_
  · refine Sim.demand hin.next TokenRule.noMark_anyName fun hin _ => Sim.pure hin.next (.inl ?_)
    rw [Token.nameText, Token.nameText, Token.name?, Token.name?, hin.kind]
  · exact Sim.pure h (.inr rfl)

/-- **What stands behind a name with dots** stands behind the rest of it. -/
theorem behind_of_dottedName {first name : String} {t : ParserState}
    (behind : List Token.Kind → Bool)
    (hdot : ∀ n ks, behind (.symbol .dot :: .name n :: ks) = behind ks)
    (h : parseDottedName first s = .ok name t) : behind s.ahead = behind t.ahead := by
  induction hn : s.remaining using Nat.strongRecOn generalizing first s with
  | _ n ih =>
    rcases repeatFrom_eq_ok.1 h with hlast | ⟨more, u, hround, hlt, hrest⟩
    · obtain ⟨found, v, hv, hend⟩ := bind_eq_ok.1 hlast
      cases found with
      | true =>
        obtain ⟨part, w, -, hend⟩ := bind_eq_ok.1 hend
        nomatch hend
      | false =>
        have hvt : v = t := (EStateM.Result.ok.inj hend).2
        have hvs : v = s := (skipIf_eq_false.1 hv).1
        rw [← hvs, hvt]
    · obtain ⟨found, v, hv, hname⟩ := bind_eq_ok.1 hround
      cases found with
      | false => nomatch hname
      | true =>
        obtain ⟨hfits, rfl⟩ := skipIf_eq_true.1 hv
        obtain ⟨part, w, hw, hname⟩ := bind_eq_ok.1 hname
        obtain ⟨hpart, rfl, rfl⟩ := expect_eq_ok.1 hw
        obtain rfl := (EStateM.Result.ok.inj hname).2
        obtain ⟨m, hm⟩ := TokenRule.exists_of_anyName hpart
        rw [ParserState.ahead_of_kind (Token.isSymbol_iff.1 hfits) nofun,
          ParserState.ahead_of_kind hm nofun, hdot]
        exact ih _ (hn ▸ hlt) hrest rfl

/-- A colon behind a name with dots. -/
theorem colonBehind_of_dottedName {first name : String} {t : ParserState}
    (h : parseDottedName first s = .ok name t) (hcolon : t.stream.current.kind = .symbol .colon) :
    colonBehind s.ahead = true := by
  have hahead : t.ahead = .symbol .colon :: t.stream.later.map Token.kind := by
    rw [← hcolon]
    rfl
  rw [behind_of_dottedName colonBehind (fun _ _ => rfl) h, hahead]
  rfl

theorem sim_filterName (hg : g.Simulates x w g') {node node' : Option Expr}
    (hnode : x.SameOption node node')
    (hfilter : colonFilter (.symbol .pipe :: s.ahead) = true → x.Settled) (h : x.Abreast w s s') :
    Sim x w (parseFilterName g node) (parseFilterName g' node') x.Same s s' := by
  refine Sim.demand h TokenRule.noMark_anyName fun hin hany => ?_
  have hfirst : s.stream.current.nameText = s'.stream.current.nameText := by
    rw [Token.nameText, Token.nameText, Token.name?, Token.name?, hin.kind]
  rw [← hfirst]
  intro e u he
  obtain ⟨name, t, hname, he⟩ := bind_eq_ok.1 he
  obtain ⟨name', t', hname', hsame, ht⟩ := sim_dottedName _ hin.next name t hname
  obtain rfl : name = name' := hsame
  have hcolon (hcolon : t.stream.current.kind = .symbol .colon) : x.Settled := by
    obtain ⟨n, hn⟩ := TokenRule.exists_of_anyName hany
    rw [ParserState.ahead_of_kind hn (by rintro ⟨⟩)] at hfilter
    exact hfilter (colonBehind_of_dottedName hname hcolon)
  have hrest : Sim x w (do
        let args ← parseOptionalArguments g
        return .filter node name args s.stream.current.line)
      (do
        let args ← parseOptionalArguments g'
        return .filter node' name args s'.stream.current.line) x.Same t t' :=
    (sim_optionalArguments hg hcolon ht).bind fun args args' u u' ha hu => Sim.pure hu (by
      rw [Exchange.Same, Expr.seen_filter, Expr.seen_filter, hnode.seen, ha.seen, h.line])
  obtain ⟨e', u', he', hee, hu⟩ := hrest e u he
  exact ⟨e', u', bind_eq_ok.2 ⟨name, t', hname', he'⟩, hee, hu⟩

/-- **Filters.** -/
theorem sim_filters (hg : g.Simulates x w g') {node node' : Option Expr}
    (hnode : x.SameOption node node') (h : x.Abreast w s s') :
    Sim x w (parseFilters g node false) (parseFilters g' node' false) x.Same s s' := by
  refine Sim.loop (fun y y' => x.SameOption y.1 y'.1 ∧ y.2 = false ∧ y'.2 = false)
    ⟨hnode, rfl, rfl⟩ h ?_
  rintro ⟨node, bare⟩ ⟨node', bare'⟩ s s' ⟨hnode, hbare, hbare'⟩ h
  obtain rfl : bare = false := hbare
  obtain rfl : bare' = false := hbare'
  refine Sim.skips h (TokenRule.noStop_symbol nofun nofun) (fun hin hpipe => ?_) ?_
  · have hfilter : colonFilter (.symbol .pipe :: s.stepped.ahead) = true → x.Settled := by
      have hahead := ParserState.ahead_of_kind (Token.isSymbol_iff.1 hpipe) nofun
      exact hahead ▸ hin.filter
    exact (sim_filterName hg hnode hfilter hin.next).bind fun e e' t t' he ht =>
      Sim.pure ht (.inl ⟨he.some, rfl, rfl⟩)
  · cases node with
    | none => exact .stuck fun _ _ => fail_ne_ok _
    | some e =>
      cases node' with
      | none => nomatch hnode
      | some e' => exact Sim.pure h (.inr (Option.some.inj hnode))

end LiquidTemplate
