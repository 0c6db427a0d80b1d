import LiquidTemplate.Proofs.Exchange.Arguments

/-!
# Expressions before another end

Each production goes abreast on two streams if those productions do that it refers to.

* `sim_primary`, `sim_postfixes`: primaries, members, items and calls.
* `sim_expression`: operators and conditions.
* `sim_tuple`: tuples, whose last comma may stand before the end.
-/

namespace LiquidTemplate

open LiquidTemplate.Parser LiquidTemplate.Grammar

variable {x : Exchange} {w : Nat} {g g' : Grammar} {s s' : ParserState} {e e' : Expr}
  {line line' : Nat}

/-! ### Lists and dictionaries -/

/-- **Items up to a closing symbol**, of which `look` is looked at. -/
theorem sim_items {α : Type} (look : α → α) {closing : Symbol} {item item' : Parser α}
    (hcomma : closing ≠ .comma) (hparen : closing ≠ .rParen)
    (hitem : ∀ {s s'}, x.Abreast w s s' → Sim x w item item' (fun y y' => look y = look y') s s')
    (h : x.Abreast w s s') :
    Sim x w (parseItems closing item) (parseItems closing item')
      (fun ys ys' => ys.map look = ys'.map look) s s' := by
  refine Sim.loop (fun ys ys' => ys.map look = ys'.map look) rfl h ?_
  intro ys ys' s s' hys h
  have hempty : ys.isEmpty = ys'.isEmpty := by
    have hempty := congrArg List.isEmpty hys
    rwa [List.isEmpty_map, List.isEmpty_map] at hempty
  have hrest {s s' : ParserState} (h : x.Abreast w s s') :
      Sim x w (do
          if ← atSymbol closing then return .inr ys
          else
            let y ← item
            return .inl (ys ++ [y]))
        (do
          if ← atSymbol closing then return .inr ys'
          else
            let y ← item'
            return .inl (ys' ++ [y]))
        (Sum.LiftRel (fun ys ys' => ys.map look = ys'.map look)
          (fun ys ys' => ys.map look = ys'.map look)) s s' := by
    refine Sim.symbol h hcomma hparen (fun _ _ => Sim.pure h (.inr hys)) ?_
    refine (hitem h).bind fun y y' t t' hy ht => Sim.pure ht (.inl ?_)
    rw [List.map_append, List.map_append, hys, List.map_singleton, List.map_singleton, hy]
  refine Sim.symbol h hcomma hparen (fun _ _ => Sim.pure h (.inr hys)) ?_
  rw [← hempty]
  exact sim_separator _ h (fun _ => hrest h) fun hin _ => hrest hin.next

theorem sim_list (hg : g.Simulates x w g') (h : x.Abreast w s s') :
    Sim x w (parseList g) (parseList g') x.Same s s' := by
  refine Sim.demand h (TokenRule.noMark_symbol _) fun hin _ => ?_
  refine (sim_items (Expr.seen x.lines) (by decide) (by decide) (hg.expression true true)
    hin.next).bind fun es es' t t' hes ht => ?_
  refine Sim.demand ht (TokenRule.noMark_symbol _) fun hin _ => Sim.pure hin.next ?_
  rw [Exchange.Same, Expr.seen_list, Expr.seen_list, hes, h.line]

theorem sim_entry (hg : g.Simulates x w g') (h : x.Abreast w s s') :
    Sim x w (parseEntry g) (parseEntry g')
      (fun y y' => (⟨y.key.seen x.lines, y.value.seen x.lines, seenLine x.lines y.line⟩ : Entry Expr) =
        ⟨y'.key.seen x.lines, y'.value.seen x.lines, seenLine x.lines y'.line⟩) s s' := by
  refine (hg.expression true true h).bind fun key key' t t' hkey ht => ?_
  refine Sim.demand ht (TokenRule.noMark_symbol _) fun hin _ => ?_
  refine (hg.expression true true hin.next).bind fun value value' u u' hvalue hu => Sim.pure hu ?_
  rw [hkey.seen, hvalue.seen, Expr.seenLine_line hkey]

theorem sim_dict (hg : g.Simulates x w g') (h : x.Abreast w s s') :
    Sim x w (parseDict g) (parseDict g') x.Same s s' := by
  refine Sim.demand h (TokenRule.noMark_symbol _) fun hin _ => ?_
  refine (sim_items (fun y : Entry Expr => ⟨y.key.seen x.lines, y.value.seen x.lines,
    seenLine x.lines y.line⟩) (by decide) (by decide) (sim_entry hg) hin.next).bind
    fun es es' t t' hes ht => ?_
  refine Sim.demand ht (TokenRule.noMark_symbol _) fun hin _ => Sim.pure hin.next ?_
  rw [Exchange.Same, Expr.seen_dict, Expr.seen_dict, hes, h.line]

/-! ### Primaries -/

theorem sim_string (first : String) (h : x.Abreast w s s') :
    Sim x w (parseString first) (parseString first) (fun text text' => text = text') s s' := by
  refine Sim.loop (fun text text' => text = text') rfl h ?_
  rintro text _ s s' rfl h
  refine Sim.see ?_
  rcases h.inside_or with hin | ⟨hs, hs'⟩
  · rw [← hin.kind]
    split
    · exact Sim.drop (Sim.pure hin.next (.inl rfl))
    · exact Sim.pure h (.inr rfl)
  · obtain ⟨m, hm⟩ := x.isMark
    rw [hs, hs', hm]
    rcases x.stops with ⟨n, hn⟩ | hn | hn | ⟨n, hn, -⟩ <;> rw [hn] <;> exact Sim.pure h (.inr rfl)

/-- **Primaries.** -/
theorem sim_primary (hg : g.Simulates x w g') (h : x.Abreast w s s') :
    Sim x w (parsePrimary g) (parsePrimary g') x.Same s s' := by
  rcases h.inside_or with hin | ⟨hs, -⟩
  · refine Sim.see ?_
    rw [← hin.kind]
    have hconst {t t' : ParserState} (ht : x.Abreast w t t') (value : Constant) :
        Sim x w (return .const value s.stream.current.line)
          (return .const value s'.stream.current.line) x.Same t t' := by
      refine Sim.pure ht ?_
      rw [Exchange.Same, Expr.seen_const, Expr.seen_const, h.line]
    generalize hk : s.stream.current.kind = k
    split
    · next name =>
      refine Sim.drop ?_
      cases Constant.ofName? name with
      | some value => exact hconst hin.next value
      | none =>
        refine Sim.pure hin.next ?_
        rw [Exchange.Same, Expr.seen_name, Expr.seen_name, h.line]
    · refine Sim.drop ((sim_string _ hin.next).bind fun text text' t t' htext ht => ?_)
      obtain rfl : text = text' := htext
      exact hconst ht _
    · exact Sim.drop (hconst hin.next _)
    · exact Sim.drop (hconst hin.next _)
    · refine Sim.drop fun y t hy => ?_
      obtain ⟨e, u, hu, hy⟩ := bind_eq_ok.1 hy
      obtain ⟨tok, v, hv, hy⟩ := bind_eq_ok.1 hy
      have hparen := (expect_eq_ok.1 hv).1
      obtain ⟨e', u', hu', he, h⟩ := hg.group hin.next hu hparen
      have hrest : Sim x w (expectSymbol .rParen >>= fun _ => Pure.pure e)
          (expectSymbol .rParen >>= fun _ => Pure.pure e') x.Same u u' :=
        Sim.demand h (TokenRule.noMark_symbol _) fun hin _ => Sim.pure hin.next he
      obtain ⟨y', t', hy', hrel, ht⟩ := hrest y t (bind_eq_ok.2 ⟨tok, v, hv, hy⟩)
      exact ⟨y', t', bind_eq_ok.2 ⟨e', u', hu', hy'⟩, hrel, ht⟩
    · exact sim_list hg h
    · exact sim_dict hg h
    · exact Sim.drop (hg.range hk hin.weight_le hin.seen hin.next)
    · exact .stuck stuck_failAt
  · exact .stuck (stuck_primary (hs ▸ x.isMark))

/-! ### Members, subscripts and calls -/

theorem sim_slicePart (hg : g.Simulates x w g') (ends : List Symbol) (h : x.Abreast w s s') :
    Sim x w (parseSlicePart g ends) (parseSlicePart g' ends) x.SameOption s s' := by
  refine Sim.see ?_
  rcases h.inside_or with hin | ⟨hs, -⟩
  · have hany : ends.any s.stream.current.isSymbol = ends.any s'.stream.current.isSymbol := by
      unfold Token.isSymbol Token.type
      rw [hin.kind]
    refine Sim.ite (by rw [hany]) (fun _ => Sim.pure h rfl) fun _ => ?_
    exact (hg.expression true true h).bind fun e e' t t' he ht => Sim.pure ht he.some
  · have hmark : s.stream.current.IsMark := hs ▸ x.isMark
    refine .stuck ?_
    rw [if_neg (by simp [hmark.not_symbol])]
    exact (hg.stuck true true hmark).bind

theorem sim_sliceFrom (hg : g.Simulates x w g') {start start' : Option Expr}
    (hstart : x.SameOption start start') (hline : x.SameLine line line') (h : x.Abreast w s s') :
    Sim x w (parseSliceFrom g start line) (parseSliceFrom g' start' line') x.Same s s' := by
  have hslice {stop stop' step step' : Option Expr} (hstop : x.SameOption stop stop')
      (hstep : x.SameOption step step') :
      x.Same (.slice start stop step line) (.slice start' stop' step' line') := by
    rw [Exchange.Same, Expr.seen_slice, Expr.seen_slice, hstart.seen, hstop.seen, hstep.seen, hline.seen]
  refine (sim_slicePart hg _ h).bind fun stop stop' t t' hstop ht => ?_
  refine Sim.skips ht (TokenRule.noStop_symbol (by rintro ⟨⟩) (by rintro ⟨⟩)) (fun hin _ => ?_) ?_
  · exact (sim_slicePart hg _ hin.next).bind fun step step' u u' hstep hu =>
      Sim.pure hu (hslice hstop hstep)
  · exact Sim.pure ht (hslice hstop rfl)

theorem sim_subscript (hg : g.Simulates x w g') (h : x.Abreast w s s') :
    Sim x w (parseSubscript g) (parseSubscript g') x.Same s s' := by
  have hcolon : TokenRule.NoStop (.type (.symbol .colon)) :=
    TokenRule.noStop_symbol nofun nofun
  refine Sim.see (Sim.skips h hcolon (fun hin _ => sim_sliceFrom hg rfl h.line hin.next) ?_)
  refine (hg.expression true true h).bind fun e e' t t' he ht => ?_
  exact Sim.skips ht hcolon (fun hin _ => sim_sliceFrom hg he.some h.line hin.next) (Sim.pure ht he)

theorem sim_subscripts (hg : g.Simulates x w g') (h : x.Abreast w s s') :
    Sim x w (parseSubscripts g) (parseSubscripts g') x.SameList s s' := by
  refine Sim.loop x.SameList rfl h ?_
  intro es es' s s' hes h
  refine Sim.symbol h (by decide) (by decide) (fun _ _ => Sim.pure h (.inr hes)) ?_
  have hrest {s s' : ParserState} (h : x.Abreast w s s') :
      Sim x w (do
          let e ← parseSubscript g
          return .inl (es ++ [e]))
        (do
          let e ← parseSubscript g'
          return .inl (es' ++ [e])) (Sum.LiftRel x.SameList x.SameList) s s' :=
    (sim_subscript hg h).bind fun e e' t t' he ht => Sim.pure ht (.inl (hes.append he))
  rw [← hes.isEmpty]
  exact sim_separator _ h (fun _ => hrest h) fun hin _ => hrest hin.next

theorem sim_member (he : x.Same e e') (hline : x.SameLine line line') (h : x.Abreast w s s') :
    Sim x w (parseMember e line) (parseMember e' line') x.Same s s' := by
  rcases h.inside_or with hin | ⟨hs, -⟩
  · refine Sim.take ?_
    rw [← hin.kind]
    split
    · refine Sim.pure hin.next ?_
      rw [Exchange.Same, Expr.seen_member, Expr.seen_member, he.seen, hline.seen]
    · refine Sim.pure hin.next ?_
      rw [Exchange.Same, Expr.seen_item, Expr.seen_item, Expr.seen_const, Expr.seen_const, he.seen,
        hline.seen, h.line]
    · exact .stuck stuck_failAt
  · refine .stuck fun y t hy => ?_
    obtain ⟨tok, u, hu, hy⟩ := bind_eq_ok.1 hy
    obtain ⟨rfl, rfl⟩ := advance_eq_ok.1 hu
    obtain ⟨m, hm⟩ := x.isMark
    rw [hs, hm] at hy
    exact failAt_ne_ok _ _ hy

theorem sim_item (hg : g.Simulates x w g') (he : x.Same e e') (hline : x.SameLine line line')
    (h : x.Abreast w s s') : Sim x w (parseItem g e line) (parseItem g' e' line') x.Same s s' := by
  refine (sim_subscripts hg h).bind fun es es' t t' hes ht => ?_
  refine Sim.demand ht (TokenRule.noMark_symbol _) fun hin _ => ?_
  have htuple : x.Same (.tuple es .load line) (.tuple es' .load line') := by
    rw [Exchange.Same, Expr.seen_tuple, Expr.seen_tuple, hes.seen, hline.seen]
  have hitem {arg arg' : Expr} (harg : x.Same arg arg') :
      x.Same (.item e arg line) (.item e' arg' line') := by
    rw [Exchange.Same, Expr.seen_item, Expr.seen_item, he.seen, harg.seen, hline.seen]
  cases es with
  | nil =>
    obtain rfl := List.map_eq_nil_iff.1 hes.symm
    exact Sim.pure hin.next (hitem htuple)
  | cons arg args =>
    obtain ⟨arg', args', rfl, harg, hargs⟩ := List.map_eq_cons_iff.1 hes.symm
    cases args with
    | nil =>
      obtain rfl := List.map_eq_nil_iff.1 hargs
      exact Sim.pure hin.next (hitem harg.symm)
    | cons =>
      obtain ⟨_, _, rfl, -⟩ := List.map_eq_cons_iff.1 hargs
      exact Sim.pure hin.next (hitem htuple)

theorem sim_postfixes (hg : g.Simulates x w g') (he : x.Same e e') (h : x.Abreast w s s') :
    Sim x w (parsePostfix g e) (parsePostfix g' e') x.Same s s' := by
  refine Sim.loop x.Same he h ?_
  intro e e' s s' he h
  refine Sim.see ?_
  rcases h.inside_or with hin | ⟨hs, hs'⟩
  · rw [← hin.kind]
    split
    · exact Sim.drop ((sim_member he h.line hin.next).bind fun y y' t t' hy ht =>
        Sim.pure ht (.inl hy))
    · exact Sim.drop ((sim_item hg he h.line hin.next).bind fun y y' t t' hy ht =>
        Sim.pure ht (.inl hy))
    · next hparen =>
      exact (sim_call hg he (Token.isSymbol_iff.2 hparen) h).bind fun y y' t t' hy ht =>
        Sim.pure ht (.inl hy)
    · exact Sim.pure h (.inr he)
  · obtain ⟨m, hm⟩ := x.isMark
    rw [hs, hs', hm]
    rcases x.stops with ⟨n, hn⟩ | hn | hn | ⟨n, hn, -⟩ <;> rw [hn] <;> exact Sim.pure h (.inr he)

/-! ### Signs and tests -/

/-- The end of a name with dots before a mark. -/
theorem endBehind_of_dottedName {first name : String} {t : ParserState}
    (h : parseDottedName first s = .ok name t) (hmark : t.stream.current.IsMark) :
    endBehind s.ahead = true := by
  obtain ⟨m, hm⟩ := hmark
  have hahead : t.ahead = .mark m :: t.stream.later.map Token.kind := by
    rw [← hm]
    rfl
  rw [behind_of_dottedName endBehind (fun _ _ => rfl) h, hahead]
  rfl

theorem sim_testArguments (hg : g.Simulates x w g')
    (hbare : s.stream.current.IsMark → x.new.name? = none) (h : x.Abreast w s s') :
    Sim x w (parseTestArguments g) (parseTestArguments g') x.SameArguments s s' := by
  refine Sim.see ?_
  have hbegins : beginsTestArgument s.stream.current = beginsTestArgument s'.stream.current := by
    unfold beginsTestArgument
    rcases h.inside_or with hin | ⟨hs, hs'⟩
    · rw [hin.kind]
    · have hname := hbare (hs ▸ x.isMark)
      obtain ⟨m, hm⟩ := x.isMark
      rw [hs, hs', hm]
      rcases x.stops with ⟨n, hn⟩ | hn | hn | ⟨n, hn, -⟩
      · rw [hn]
      · rw [hn]
      · rw [hn]
      · rw [Token.name?, hn] at hname
        cases hname
  refine Sim.ite (by rw [h.symbol .lParen (by rintro ⟨⟩) (by rintro ⟨⟩)])
    (fun hparen => sim_inParens hg hparen h)
    fun _ => ?_
  refine Sim.ite (by rw [hbegins]) (fun _ => ?_) fun _ => Sim.pure h rfl
  refine Sim.ite (by rw [h.name "is" (by decide)]) (fun _ => .stuck fun _ _ => fail_ne_ok _) fun _ => ?_
  refine (sim_primary hg h).bind fun e e' t t' he ht => Sim.pure ht ?_
  have hnone : x.SameArguments {} {} := rfl
  exact hnone.positional he

theorem sim_test (hg : g.Simulates x w g') (he : x.Same e e')
    (his : s.stream.current.kind = .name "is") (hin : x.Inside w s s') :
    Sim x w (parseTest g e) (parseTest g' e') x.Same s s' := by
  have hline : x.SameLine s.stream.current.line s'.stream.current.line := (Prod.mk.inj hin.seen).2
  have hname {negated : Bool} {s s' : ParserState} (h : x.Abreast w s s') {line line' : Nat}
      (hbare : nameAtEnd s.ahead = true → x.new.name? = none)
      (hline : x.SameLine line line') : Sim x w (do
          let first ← expectAnyName
          let name ← parseDottedName first.nameText
          let args ← parseTestArguments g
          let e := Expr.test e name args line
          return if negated then .not e line else e)
        (do
          let first ← expectAnyName
          let name ← parseDottedName first.nameText
          let args ← parseTestArguments g'
          let e := Expr.test e' name args line'
          return if negated then .not e line' else e) x.Same s s' := by
    refine Sim.demand h TokenRule.noMark_anyName fun hin hany => ?_
    have hfirst : s.stream.current.nameText = s'.stream.current.nameText := by
      rw [Token.nameText, Token.nameText, Token.name?, Token.name?, hin.kind]
    rw [← hfirst]
    intro y v hy
    obtain ⟨name, t, ht, hy⟩ := bind_eq_ok.1 hy
    obtain ⟨name', t', ht', hsame, habreast⟩ := sim_dottedName _ hin.next name t ht
    obtain rfl : name = name' := hsame
    have hbare (hmark : t.stream.current.IsMark) : x.new.name? = none := by
      obtain ⟨n, hn⟩ := TokenRule.exists_of_anyName hany
      rw [ParserState.ahead_of_kind hn (by rintro ⟨⟩)] at hbare
      exact hbare (endBehind_of_dottedName ht hmark)
    have hrest : Sim x w (do
          let args ← parseTestArguments g
          let e := Expr.test e name args line
          return if negated then .not e line else e)
        (do
          let args ← parseTestArguments g'
          let e := Expr.test e' name args line'
          return if negated then .not e line' else e) x.Same t t' := by
      refine (sim_testArguments hg hbare habreast).bind fun args args' u u' ha hu => Sim.pure hu ?_
      have htest : x.Same (.test e name args line) (.test e' name args' line') := by
        rw [Exchange.Same, Expr.seen_test, Expr.seen_test, he.seen, ha.seen, hline.seen]
      cases negated with
      | false => exact htest
      | true =>
        show x.Same (.not _ _) (.not _ _)
        rw [Exchange.Same, Expr.seen_not, Expr.seen_not, htest.seen, hline.seen]
    obtain ⟨y', v', hy', hyy, hv⟩ := hrest y v hy
    exact ⟨y', v', bind_eq_ok.2 ⟨name, t', ht', hy'⟩, hyy, hv⟩
  have hbare : nameAtEnd (behindNot s.stepped.ahead) = true → x.new.name? = none := by
    have htest := hin.test
    rwa [ParserState.ahead_of_kind his (by rintro ⟨⟩)] at htest
  have hnot : TokenRule.NoStop (.name "not") := TokenRule.noStop_name "not" (by decide)
  refine Sim.take fun y v hy => ?_
  obtain ⟨found, t, ht, hy⟩ := bind_eq_ok.1 hy
  have hfits := hin.next.fits hnot
  cases found with
  | true =>
    obtain ⟨hthere, rfl⟩ := skipIf_eq_true.1 ht
    have hin' := hin.next.inside hnot.noMark hthere
    rw [ParserState.ahead_of_kind (Token.isName_iff.1 hthere) (by rintro ⟨⟩), behindNot_of_name] at hbare
    obtain ⟨y', v', hy', hyy, hv⟩ := hname hin'.next hbare hline y v hy
    exact ⟨y', v', bind_eq_ok.2 ⟨true, _, skipIf_eq_true.2 ⟨hfits ▸ hthere, rfl⟩, hy'⟩, hyy, hv⟩
  | false =>
    obtain ⟨rfl, hno⟩ := skipIf_eq_false.1 ht
    have hne : s.stepped.stream.current.kind ≠ .name "not" := fun h => by
      rw [Token.fits_eq, h] at hno
      cases hno
    have hahead : behindNot s.stepped.ahead = s.stepped.ahead := behindNot_of_ne _ hne
    rw [hahead] at hbare
    obtain ⟨y', v', hy', hyy, hv⟩ := hname hin.next hbare hline y v hy
    exact ⟨y', v', bind_eq_ok.2 ⟨false, _, skipIf_eq_false.2 ⟨rfl, hfits ▸ hno⟩, hy'⟩, hyy, hv⟩

theorem sim_trailers (hg : g.Simulates x w g') (he : x.Same e e') (h : x.Abreast w s s') :
    Sim x w (parseTrailers g e) (parseTrailers g' e') x.Same s s' := by
  refine Sim.loop x.Same he h ?_
  intro e e' s s' he h
  refine Sim.see (Sim.ite (by rw [h.symbol .pipe nofun nofun]) (fun _ => ?_) fun _ => ?_)
  · exact (sim_filters hg he.some h).bind fun y y' t t' hy ht => Sim.pure ht (.inl hy)
  refine Sim.ite (by rw [h.name "is" (by decide)]) (fun hthere => ?_) fun _ => ?_
  · have hin := h.inside (TokenRule.noMark_name "is") hthere
    exact (sim_test hg he (Token.isName_iff.1 hthere) hin).bind fun y y' t t' hy ht =>
      Sim.pure ht (.inl hy)
  refine Sim.ite (by rw [h.symbol .lParen nofun nofun]) (fun hparen => ?_) fun _ => Sim.pure h (.inr he)
  exact (sim_call hg he hparen h).bind fun y y' t t' hy ht => Sim.pure ht (.inl hy)

theorem sim_sign (hg : g.Simulates x w g') (h : x.Abreast w s s') :
    Sim x w (parseSign g) (parseSign g') x.Same s s' := by
  have hsub := h.symbol .sub (by rintro ⟨⟩) (by rintro ⟨⟩)
  have hadd := h.symbol .add (by rintro ⟨⟩) (by rintro ⟨⟩)
  refine Sim.see (Sim.ite (by rw [hsub]) (fun hthere => ?_) fun _ => ?_)
  · have hin := h.inside (TokenRule.noMark_symbol .sub) hthere
    refine Sim.drop ((hg.signed hin.next).bind fun e e' t t' he ht => Sim.pure ht ?_)
    rw [Exchange.Same, Expr.seen_neg, Expr.seen_neg, he.seen, h.line]
  refine Sim.ite (by rw [hadd]) (fun hthere => ?_) fun _ => sim_primary hg h
  have hin := h.inside (TokenRule.noMark_symbol .add) hthere
  refine Sim.drop ((hg.signed hin.next).bind fun e e' t t' he ht => Sim.pure ht ?_)
  rw [Exchange.Same, Expr.seen_pos, Expr.seen_pos, he.seen, h.line]

theorem sim_signed (hg : g.Simulates x w g') (filters : Bool) (h : x.Abreast w s s') :
    Sim x w (parseSigned g filters) (parseSigned g' filters) x.Same s s' := by
  refine (sim_sign hg h).bind fun e e' t t' he ht => ?_
  refine (sim_postfixes hg he ht).bind fun e e' u u' he hu => ?_
  exact Sim.ite Iff.rfl (fun _ => sim_trailers hg he hu) fun _ => Sim.pure hu he

/-! ### Operators -/

/-- **Chains of arithmetic operators.** -/
theorem sim_binary {p p' : Parser Expr} {operator? : Token → Option BinaryOp}
    (h : x.Abreast w s s') (hp : ∀ s s', x.Abreast w s s' → Sim x w p p' x.Same s s')
    (hkind : ∀ t t' : Token, t.kind = t'.kind → operator? t = operator? t')
    (hstop : ∀ t : Token, t.Stops → operator? t = none) :
    Sim x w (leftChain p fun t => (operator? t).map Expr.binary)
      (leftChain p' fun t => (operator? t).map Expr.binary) x.Same s s' := by
  refine sim_leftChain h hp (fun t t' hk => by rw [hkind t t' hk]) (fun t ht => ?_) ?_
  · rw [hstop t ht]
    rfl
  · intro t build hbuild left left' right right' line line' hleft hright hline
    obtain ⟨op, _, rfl⟩ := Option.map_eq_some_iff.1 hbuild
    rw [Exchange.Same, Expr.seen_binary, Expr.seen_binary, hleft.seen, hright.seen, hline]

theorem sim_product (hg : g.Simulates x w g') (filters : Bool) (h : x.Abreast w s s') :
    Sim x w (parseProduct g filters) (parseProduct g' filters) x.Same s s' := by
  refine sim_binary h (fun s s' h => sim_binary h (fun _ _ => sim_signed hg filters) ?_ ?_) ?_ ?_
  · intro t t' hk
    rw [BinaryOp.power?, BinaryOp.power?, Token.isSymbol, Token.isSymbol, Token.type, Token.type, hk]
  · intro t ht
    have hrule : TokenRule.NoStop (.type (.symbol .pow)) :=
      TokenRule.noStop_symbol (by rintro ⟨⟩) (by rintro ⟨⟩)
    have hpow : t.isSymbol .pow = false := hrule t ht
    rw [BinaryOp.power?, hpow]
    rfl
  · intro t t' hk
    rw [BinaryOp.multiplicative?, BinaryOp.multiplicative?, hk]
  · intro t ht
    unfold BinaryOp.multiplicative?
    rcases ht with ⟨m, hk⟩ | hk | hk | ⟨n, hk, -⟩ <;> rw [hk]

theorem sim_concat (hg : g.Simulates x w g') (filters : Bool) (h : x.Abreast w s s') :
    Sim x w (parseConcat g filters) (parseConcat g' filters) x.Same s s' := by
  have hnodes : Sim x w (parseConcatNodes g filters) (parseConcatNodes g' filters) x.SameList s s' := by
    refine (sim_product hg filters h).bind fun first first' t t' hfirst ht => ?_
    have hone : x.SameList [first] [first'] := congrArg (fun e => [e]) hfirst
    refine Sim.loop x.SameList hone ht fun es es' s s' hes h => ?_
    refine Sim.skips h (TokenRule.noStop_symbol (by rintro ⟨⟩) (by rintro ⟨⟩)) (fun hin _ => ?_)
      (Sim.pure h (.inr hes))
    exact (sim_product hg filters hin.next).bind fun e e' t t' he ht =>
      Sim.pure ht (.inl (hes.append he))
  refine Sim.see (hnodes.bind fun es es' t t' hes ht => ?_)
  have hconcat : x.Same (.concat es s.stream.current.line) (.concat es' s'.stream.current.line) := by
    rw [Exchange.Same, Expr.seen_concat, Expr.seen_concat, hes.seen, h.line]
  cases es with
  | nil =>
    obtain rfl := List.map_eq_nil_iff.1 hes.symm
    exact Sim.pure ht hconcat
  | cons e es =>
    obtain ⟨e', es', rfl, he, hes⟩ := List.map_eq_cons_iff.1 hes.symm
    cases es with
    | nil =>
      obtain rfl := List.map_eq_nil_iff.1 hes
      exact Sim.pure ht he.symm
    | cons =>
      obtain ⟨_, _, rfl, -⟩ := List.map_eq_cons_iff.1 hes
      exact Sim.pure ht hconcat

theorem sim_sum (hg : g.Simulates x w g') (filters : Bool) (h : x.Abreast w s s') :
    Sim x w (parseSum g filters) (parseSum g' filters) x.Same s s' := by
  refine sim_binary h (fun _ _ => sim_concat hg filters) ?_ ?_
  · intro t t' hk
    rw [BinaryOp.additive?, BinaryOp.additive?, hk]
  · intro t ht
    unfold BinaryOp.additive?
    rcases ht with ⟨m, hk⟩ | hk | hk | ⟨n, hk, -⟩ <;> rw [hk]

/-! ### Logic -/

theorem sim_comparison (h : x.Abreast w s s') :
    Sim x w parseComparison? parseComparison? (fun op op' => op = op') s s' := by
  refine Sim.see ?_
  have hop : Comparison.ofToken? s.stream.current = Comparison.ofToken? s'.stream.current := by
    unfold Comparison.ofToken?
    rcases h.inside_or with hin | ⟨hs, hs'⟩
    · rw [hin.kind]
    · obtain ⟨m, hm⟩ := x.isMark
      rw [hs, hs', hm]
      rcases x.stops with ⟨n, hn⟩ | hn | hn | ⟨n, hn, -⟩ <;> rw [hn]
  rw [← hop]
  cases hthere : Comparison.ofToken? s.stream.current with
  | some op =>
    have hin : x.Inside w s s' := by
      rcases h.inside_or with hin | ⟨hs, -⟩
      · exact hin
      · obtain ⟨m, hm⟩ := x.isMark
        rw [hs, Comparison.ofToken?, hm] at hthere
        cases hthere
    exact Sim.drop (Sim.pure hin.next rfl)
  | none =>
    refine Sim.ite (by rw [h.name "in" (by decide)]) (fun hname => ?_) fun _ => Sim.peek ?_
    · have hin := h.inside (TokenRule.noMark_name "in") hname
      exact Sim.drop (Sim.pure hin.next rfl)
    · rw [← h.name "not" (by decide)]
      cases hnot : s.stream.current.isName "not" with
      | false => exact Sim.pure h rfl
      | true =>
        have hin := h.inside (TokenRule.noMark_name "not") hnot
        have hlook : s.stream.look.isName "in" = s'.stream.look.isName "in" := by
          rw [TokenStream.look_eq_current_next, TokenStream.look_eq_current_next]
          exact hin.next.name "in" (by decide)
        refine Sim.ite (by rw [hlook]) (fun hname => ?_) fun _ => Sim.pure h rfl
        rw [TokenStream.look_eq_current_next] at hname
        have hin' := hin.next.inside (TokenRule.noMark_name "in") hname
        exact Sim.skipTwo (Sim.pure hin'.next rfl)

theorem sim_operands (hg : g.Simulates x w g') (filters : Bool) (hline : x.SameLine line line')
    (h : x.Abreast w s s') :
    Sim x w (parseOperands g filters line) (parseOperands g' filters line')
      (fun y y' => y.1.map (fun o => (⟨o.op, o.expr.seen x.lines⟩ : Operand Expr)) =
          y'.1.map (fun o => ⟨o.op, o.expr.seen x.lines⟩) ∧ x.SameLine y.2 y'.2) s s' := by
  refine Sim.loop (fun y y' => y.1.map (fun o => (⟨o.op, o.expr.seen x.lines⟩ : Operand Expr)) =
    y'.1.map (fun o => ⟨o.op, o.expr.seen x.lines⟩) ∧ x.SameLine y.2 y'.2) ⟨rfl, hline⟩ h ?_
  rintro ⟨os, line⟩ ⟨os', line'⟩ s s' ⟨hos, hline⟩ h
  refine (sim_comparison h).bind fun op op' t t' hop ht => ?_
  obtain rfl : op = op' := hop
  cases op with
  | none => exact Sim.pure ht (.inr ⟨hos, hline⟩)
  | some op =>
    refine (sim_sum hg filters ht).bind fun e e' u u' he hu => Sim.see (Sim.pure hu (.inl ⟨?_, hu.line⟩))
    have hmore : os.map (fun o => (⟨o.op, o.expr.seen x.lines⟩ : Operand Expr)) =
      os'.map (fun o => ⟨o.op, o.expr.seen x.lines⟩) := hos
    rw [List.map_append, List.map_append, hmore, List.map_singleton, List.map_singleton, he.seen]

theorem sim_compare (hg : g.Simulates x w g') (filters : Bool) (h : x.Abreast w s s') :
    Sim x w (parseCompare g filters) (parseCompare g' filters) x.Same s s' := by
  refine Sim.see ((sim_sum hg filters h).bind fun e e' t t' he ht => ?_)
  refine (sim_operands hg filters h.line ht).bind fun y y' u u' hy hu => Sim.pure hu ?_
  obtain ⟨os, line⟩ := y
  obtain ⟨os', line'⟩ := y'
  obtain ⟨hos, hline⟩ := hy
  match os, os', hos with
  | [], [], _ => exact he
  | o :: os, o' :: os', hos =>
    show x.Same (.compare e (o :: os) line) (.compare e' (o' :: os') line')
    rw [Exchange.Same, Expr.seen_compare, Expr.seen_compare, he.seen, hos, hline.seen]

theorem sim_negation (hg : g.Simulates x w g') (filters : Bool) (h : x.Abreast w s s') :
    Sim x w (parseNegation g filters) (parseNegation g' filters) x.Same s s' := by
  refine Sim.see
    (Sim.ite (by rw [h.name "not" (by decide)]) (fun hthere => ?_) fun _ => sim_compare hg filters h)
  have hin := h.inside (TokenRule.noMark_name "not") hthere
  refine Sim.drop ((hg.negation filters hin.next).bind fun e e' t t' he ht => Sim.pure ht ?_)
  rw [Exchange.Same, Expr.seen_not, Expr.seen_not, he.seen, h.line]

/-- **Chains** of `and` or `or`. -/
theorem sim_named {p p' : Parser Expr} {word : String} {make : Expr → Expr → Nat → Expr}
    (hword : word ∈ Token.operatorNames) (h : x.Abreast w s s')
    (hp : ∀ s s', x.Abreast w s s' → Sim x w p p' x.Same s s')
    (hmake : ∀ left right line, (make left right line).seen x.lines =
      make (left.seen x.lines) (right.seen x.lines) (seenLine x.lines line)) :
    Sim x w (leftChain p fun t => if t.isName word then some make else none)
      (leftChain p' fun t => if t.isName word then some make else none) x.Same s s' := by
  refine sim_leftChain h hp (fun t t' hk => ?_) (fun t ht => ?_) ?_
  · rw [Token.isName, Token.isName, Token.name?, Token.name?, hk]
  · have hno : t.isName word = false := TokenRule.noStop_name word hword t ht
    rw [hno]
    rfl
  · intro t build hbuild left left' right right' line line' hleft hright hline
    split at hbuild
    · obtain rfl := Option.some.inj hbuild
      rw [Exchange.Same, hmake, hmake, hleft.seen, hright.seen, hline]
    · cases hbuild

theorem sim_or (hg : g.Simulates x w g') (filters : Bool) (h : x.Abreast w s s') :
    Sim x w (parseOr g filters) (parseOr g' filters) x.Same s s' := by
  refine sim_named (by decide) h (fun s s' h => ?_) fun left right line =>
    Expr.seen_or line left right
  exact sim_named (by decide) h (fun _ _ => sim_negation hg filters) fun left right line =>
    Expr.seen_and line left right

theorem sim_else (hg : g.Simulates x w g') (h : x.Abreast w s s') :
    Sim x w (parseElse? g) (parseElse? g') x.SameOption s s' := by
  refine Sim.skips h (TokenRule.noStop_name "else" (by decide)) (fun hin _ => ?_) (Sim.pure h rfl)
  exact (hg.expression true true hin.next).bind fun e e' t t' he ht => Sim.pure ht he.some

theorem sim_conditional (hg : g.Simulates x w g') (filters : Bool) (h : x.Abreast w s s') :
    Sim x w (parseConditional g filters) (parseConditional g' filters) x.Same s s' := by
  refine Sim.see ((sim_or hg filters h).bind fun first first' t t' hfirst ht => ?_)
  refine Sim.loop (fun y y' => x.Same y.1 y'.1 ∧ x.SameLine y.2 y'.2) ⟨hfirst, h.line⟩ ht ?_
  rintro ⟨e, line⟩ ⟨e', line'⟩ s s' ⟨he, hline⟩ h
  refine Sim.skips h (TokenRule.noStop_name "if" (by decide)) (fun hin _ => ?_) (Sim.pure h (.inr he))
  refine (sim_or hg filters hin.next).bind fun cond cond' t t' hcond ht => ?_
  refine (sim_else hg ht).bind fun no no' u u' hno hu => Sim.see (Sim.pure hu (.inl ⟨?_, hu.line⟩))
  have hyes : x.Same e e' := he
  have hline : x.SameLine line line' := hline
  rw [Exchange.Same, Expr.seen_conditional, Expr.seen_conditional, hcond.seen, hyes.seen, hno.seen,
    hline.seen]

/-- **Expressions.** -/
theorem sim_expression (hg : g.Simulates x w g') (conditional filters : Bool)
    (h : x.Abreast w s s') :
    Sim x w (parseExpression g conditional filters) (parseExpression g' conditional filters) x.Same
      s s' :=
  Sim.ite Iff.rfl (fun _ => sim_conditional hg filters h) fun _ => sim_or hg filters h

/-! ### Tuples -/

/-- **Results that both sides share**: those before a closing parenthesis, and, where the new end is
a mark, all that are not empty. -/
def Exchange.Shares (x : Exchange) (read : TupleItems) (t : ParserState) : Prop :=
  t.stream.current.isSymbol .rParen = true ∨ x.new.IsMark ∧ read.items ≠ []

/-- The items of a tuple as far as they have been read on both sides. -/
def Exchange.SameItems (x : Exchange) (read read' : TupleItems) : Prop :=
  x.SameList read.items read'.items ∧ read.isTuple = read'.isTuple ∧ x.SameLine read.line read'.line

/-- A comma between items, and the end of the tuple behind it. -/
theorem separator_abreast {needed : Bool} {u : Unit} {v : ParserState} (h : x.Abreast w s s')
    (hv : parseSeparator needed s = .ok u v) :
    ∃ v', parseSeparator needed s' = .ok () v' ∧ x.Abreast w v v' ∧
      (needed = true → isTupleEnd [] v.stream.current = true →
        isTupleEnd [] v'.stream.current = true) := by
  cases needed with
  | false =>
    obtain ⟨-, rfl⟩ := EStateM.Result.ok.inj hv
    exact ⟨s', rfl, h, nofun⟩
  | true =>
    obtain ⟨tok, t, ht, hv⟩ := bind_eq_ok.1 hv
    obtain ⟨-, rfl⟩ := EStateM.Result.ok.inj hv
    obtain ⟨hfits, -, rfl⟩ := expect_eq_ok.1 ht
    have hin := h.inside (TokenRule.noMark_symbol .comma) hfits
    have hfits' := hfits
    rw [Token.fits_congr hin.kind] at hfits'
    refine ⟨s'.stepped, ?_, hin.next, fun _ => hin.comma (Token.isSymbol_iff.1 hfits)⟩
    exact bind_eq_ok.2 ⟨_, _, expect_eq_ok.2 ⟨hfits', rfl, rfl⟩, rfl⟩

/-- A comma behind an item. -/
theorem comma_abreast (h : x.Abreast w s s')
    (hend : s.stream.current.isSymbol .comma = false →
      s.stream.current.isSymbol .rParen = true ∨ x.new.IsMark) :
    s.stream.current.isSymbol .comma = s'.stream.current.isSymbol .comma := by
  rcases h.inside_or with hin | ⟨hs, hs'⟩
  · exact Token.fits_congr hin.kind (.type (.symbol .comma))
  · have hold := x.isMark.not_symbol
    rw [hs, hs', hold]
    rw [hs, hold, hold] at hend
    rcases hend rfl with hparen | hmark
    · nomatch hparen
    · exact (hmark.not_symbol .comma).symm

/-- **Items of a tuple** that both sides share. -/
theorem sim_tupleItems (hg : g.Simulates x w g') (conditional : Bool) (hline : x.SameLine line line')
    (h : x.Abreast w s s') {read : TupleItems} {t : ParserState}
    (hread : parseTupleItems g (.expression conditional) [] line s = .ok read t)
    (hshares : x.Shares read t) :
    ∃ read' t', parseTupleItems g' (.expression conditional) [] line' s' = .ok read' t' ∧
      x.SameItems read read' ∧ x.Abreast w t t' := by
  have hfirst : x.SameItems { line := line } { line := line' } := ⟨rfl, rfl, hline⟩
  refine sim_loop_of x.SameItems x.Shares ?_ hfirst h hread hshares
  rintro read read' s s' z u hsame h hz honly
  obtain ⟨_, v, hv, hz⟩ := bind_eq_ok.1 hz
  obtain ⟨v', hv', h, hend⟩ := separator_abreast h hv
  rw [hsame.1.isEmpty] at hv'
  obtain ⟨tok, v₂, hv₂, hz⟩ := bind_eq_ok.1 hz
  obtain ⟨rfl, rfl⟩ := current_eq_ok.1 hv₂
  split at hz
  · next hends =>
    obtain ⟨rfl, rfl⟩ := EStateM.Result.ok.inj hz
    have hends' : isTupleEnd [] v'.stream.current = true := by
      rcases honly read rfl with hparen | ⟨_, hne⟩
      · have hin := h.inside (TokenRule.noMark_symbol .rParen) hparen
        exact Exchange.isTupleEnd_congr hin.kind ▸ hends
      · exact hend (by simpa using hne) hends
    refine ⟨.inr read', v', bind_eq_ok.2 ⟨(), v', hv', bind_eq_ok.2 ⟨_, v', rfl, ?_⟩⟩, .inr hsame, h⟩
    rw [if_pos hends']
    rfl
  · next hends =>
    obtain ⟨e, t, he, hz⟩ := bind_eq_ok.1 hz
    have hin : x.Inside w v₂ v' := by
      rcases h.inside_or with hin | ⟨hs, -⟩
      · exact hin
      · exact absurd he (stuck_expression (hs ▸ x.isMark) conditional true e t)
    have hends' : ¬ isTupleEnd [] v'.stream.current = true :=
      Exchange.isTupleEnd_congr hin.kind ▸ hends
    obtain ⟨e', t', he', hee, ht⟩ := sim_expression hg conditional true h e t he
    have hitems := hsame.1.append hee
    obtain ⟨tok, t₂, ht₂, hz⟩ := bind_eq_ok.1 hz
    obtain ⟨rfl, rfl⟩ := current_eq_ok.1 ht₂
    have hcomma : t₂.stream.current.isSymbol .comma = t'.stream.current.isSymbol .comma := by
      refine comma_abreast ht fun hno => ?_
      rw [hno] at hz
      obtain ⟨rfl, rfl⟩ := EStateM.Result.ok.inj hz
      exact (honly _ rfl).imp_right And.left
    cases hc : t₂.stream.current.isSymbol .comma with
    | true =>
      rw [hc] at hz hcomma
      obtain ⟨rfl, rfl⟩ := EStateM.Result.ok.inj hz
      refine ⟨.inl ⟨read'.items ++ [e'], true, t'.stream.current.line⟩, t',
        bind_eq_ok.2 ⟨(), v', hv', bind_eq_ok.2 ⟨_, v', rfl, ?_⟩⟩, .inl ⟨hitems, rfl, ht.line⟩, ht⟩
      rw [if_neg hends']
      refine bind_eq_ok.2 ⟨e', t', he', bind_eq_ok.2 ⟨_, t', rfl, ?_⟩⟩
      rw [← hcomma]
      rfl
    | false =>
      rw [hc] at hz hcomma
      obtain ⟨rfl, rfl⟩ := EStateM.Result.ok.inj hz
      refine ⟨.inr { read' with items := read'.items ++ [e'] }, t',
        bind_eq_ok.2 ⟨(), v', hv', bind_eq_ok.2 ⟨_, v', rfl, ?_⟩⟩, .inr ⟨hitems, hsame.2⟩, ht⟩
      rw [if_neg hends']
      refine bind_eq_ok.2 ⟨e', t', he', bind_eq_ok.2 ⟨_, t', rfl, ?_⟩⟩
      rw [← hcomma]
      rfl

/-- A tuple with a comma has an item. -/
theorem items_ne_nil {item : TupleItem} {ends : List TokenRule} {read : TupleItems} {t : ParserState}
    (h : parseTupleItems g item ends line s = .ok read t) (htuple : read.isTuple = true) :
    read.items ≠ [] := by
  have hinv : read.isTuple = true → read.items ≠ [] := by
    refine repeatFrom_rule (fun read _ => read.isTuple = true → read.items ≠ [])
      (fun read _ => read.isTuple = true → read.items ≠ []) (fun read s z u hread hz => ?_)
      (fun hno => absurd hno Bool.false_ne_true) h
    obtain ⟨_, v, hv, hz⟩ := bind_eq_ok.1 hz
    obtain ⟨tok, v₂, hv₂, hz⟩ := bind_eq_ok.1 hz
    split at hz
    · obtain ⟨rfl, -⟩ := EStateM.Result.ok.inj hz
      exact hread
    · obtain ⟨e, y, hy, hz⟩ := bind_eq_ok.1 hz
      obtain ⟨tok, y₂, hy₂, hz⟩ := bind_eq_ok.1 hz
      split at hz <;> obtain ⟨rfl, -⟩ := EStateM.Result.ok.inj hz <;> exact fun _ => by simp
  exact hinv htuple

/-- **What the items of a tuple make**: a tuple, or the only item. -/
def Grammar.TupleItems.expr? (parentheses : Bool) (read : TupleItems) : Option Expr :=
  match read.isTuple, read.items with
  | false, e :: _ => some e
  | false, [] => if parentheses then some (.tuple [] .load read.line) else none
  | true, items => some (.tuple items .load read.line)

theorem parseTuple_eq_ok {item : TupleItem} {ends : List TokenRule} {parentheses : Bool}
    {t : ParserState} : parseTuple g item ends parentheses s = .ok e t ↔
      ∃ read, parseTupleItems g item ends s.stream.current.line s = .ok read t ∧
        read.expr? parentheses = some e := by
  have hmake (read : TupleItems) (u : ParserState) : (match read.isTuple, read.items with
        | false, e :: _ => return e
        | false, [] =>
          if parentheses then return .tuple [] .load read.line
          else do fail (.expectedExpression (← current).describe)
        | true, items => return .tuple items .load read.line : Parser Expr) u = .ok e t ↔
      u = t ∧ read.expr? parentheses = some e := by
    obtain ⟨items, isTuple, line⟩ := read
    cases isTuple with
    | true => simp [TupleItems.expr?, Pure.pure, EStateM.pure, and_comm]
    | false =>
      cases items with
      | cons e es => simp [TupleItems.expr?, Pure.pure, EStateM.pure, and_comm]
      | nil =>
        cases parentheses with
        | true => simp [TupleItems.expr?, Pure.pure, EStateM.pure, and_comm]
        | false => exact ⟨fun h => absurd h (fail_ne_ok _), fun h => nomatch h.2⟩
  constructor
  · intro h
    obtain ⟨tok, s₂, hs, h⟩ := bind_eq_ok.1 h
    obtain ⟨rfl, rfl⟩ := current_eq_ok.1 hs
    obtain ⟨read, u, hread, h⟩ := bind_eq_ok.1 h
    obtain ⟨rfl, he⟩ := (hmake read u).1 h
    exact ⟨read, hread, he⟩
  · intro h
    obtain ⟨read, hread, he⟩ := h
    exact bind_eq_ok.2 ⟨_, s, rfl, bind_eq_ok.2 ⟨read, t, hread, (hmake read t).2 ⟨rfl, he⟩⟩⟩

/-- The same items make the same expression. -/
theorem Exchange.SameItems.expr? {parentheses : Bool} {read read' : TupleItems}
    (h : x.SameItems read read') (he : read.expr? parentheses = some e) :
    ∃ e', read'.expr? parentheses = some e' ∧ x.Same e e' := by
  obtain ⟨items, isTuple, line⟩ := read
  obtain ⟨items', isTuple', line'⟩ := read'
  obtain ⟨hitems, rfl, hline⟩ := h
  have htuple : x.Same (.tuple items .load line) (.tuple items' .load line') := by
    rw [Exchange.Same, Expr.seen_tuple, Expr.seen_tuple, hitems.seen, hline.seen]
  cases isTuple with
  | true =>
    obtain rfl := Option.some.inj he
    exact ⟨_, rfl, htuple⟩
  | false =>
    cases items with
    | nil =>
      obtain rfl := List.map_eq_nil_iff.1 hitems.symm
      cases parentheses with
      | false => cases he
      | true =>
        obtain rfl := Option.some.inj he
        exact ⟨_, rfl, htuple⟩
    | cons y =>
      obtain ⟨y', _, rfl, hy, -⟩ := List.map_eq_cons_iff.1 hitems.symm
      obtain rfl := Option.some.inj he
      exact ⟨y', rfl, hy.symm⟩

/-- **Tuples** before a closing parenthesis, and, where the new end is a mark, all but those in
parentheses. -/
theorem sim_tuple (hg : g.Simulates x w g') (conditional parentheses : Bool) (h : x.Abreast w s s')
    {t : ParserState} (he : parseTuple g (.expression conditional) [] parentheses s = .ok e t)
    (hend : t.stream.current.isSymbol .rParen = true ∨ x.new.IsMark ∧ parentheses = false) :
    ∃ e' t', parseTuple g' (.expression conditional) [] parentheses s' = .ok e' t' ∧ x.Same e e' ∧
      x.Abreast w t t' := by
  obtain ⟨read, hread, he⟩ := parseTuple_eq_ok.1 he
  have hne : parentheses = false → read.items ≠ [] := by
    rintro rfl hnil
    unfold TupleItems.expr? at he
    cases htuple : read.isTuple with
    | true => exact items_ne_nil hread htuple hnil
    | false =>
      rw [htuple, hnil] at he
      nomatch he
  obtain ⟨read', t', hread', hsame, ht⟩ := sim_tupleItems hg conditional h.line h hread
    (hend.imp_right fun hmark => ⟨hmark.1, hne hmark.2⟩)
  obtain ⟨e', he', hee⟩ := hsame.expr? he
  exact ⟨e', t', parseTuple_eq_ok.2 ⟨read', hread', he'⟩, hee, ht⟩

end LiquidTemplate
