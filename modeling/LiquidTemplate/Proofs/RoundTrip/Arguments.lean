import LiquidTemplate.Proofs.RoundTrip.Primaries

/-!
# Argument lists

An argument list has four stretches: arguments in order, those with names, one list and one
dictionary that are spread out. The loop goes through each of them, and its value holds what has
been read so far.

* `leads_positional`, `leads_keywords`, `leads_spread`, `leads_spreadKeywords`: the stretches.
* `reads_arguments`: a whole list.
-/

namespace LiquidTemplate

open LiquidTemplate.Parser LiquidTemplate.Grammar

variable {env : Environment} {st : Style} {n line : Nat} {g : Grammar} {form : ArgumentForm} {e : Expr}
  {a b rest ks : List Token.Kind} {k l : Token.Kind} {post : Expr → Prop}

/-! ### Single arguments -/

/-- The loop over the arguments of a list. -/
abbrev argumentLoop (g : Grammar) (form : ArgumentForm) (line : Nat) :
    Arguments Expr × Bool → Parser (Arguments Expr) :=
  repeatFrom (parseNextArgument g form line)

/-- **One argument** is one round of the loop. -/
theorem leads_argument {args : Arguments Expr} (later : Bool) {post : Arguments Expr → Prop}
    (hopen : ∀ line span, form.isClosedBy ⟨l, line, span⟩ = false)
    (h : Reads n (parseArgument g form line args) (l :: (a ++ k :: rest)) (k :: rest) post) :
    Leads n (argumentLoop g form line (args, later)) (argumentLoop g form line)
      ((if later then [.symbol .comma] else []) ++ l :: (a ++ k :: rest)) (k :: rest)
      (fun y => post y.1 ∧ y.2 = true) := by
  refine Leads.round ?_ (length_behind_append_lt ..)
  have hread : Reads n
      (do
        parseSeparator later
        if form.isClosedBy (← current) then
          return .inr args
        else
          let args ← parseArgument g form line args
          return .inl (args, true) : Parser ((Arguments Expr × Bool) ⊕ Arguments Expr))
      ((if later then [.symbol .comma] else []) ++ l :: (a ++ k :: rest)) (k :: rest)
      (fun r => ∃ y, r = .inl y ∧ post y.1 ∧ y.2 = true) := by
    refine (reads_separator later).bind fun _ _ => Reads.see fun line' span => ?_
    rw [hopen, if_neg Bool.false_ne_true]
    exact h.bind fun y hy => Reads.pure ⟨_, rfl, hy, rfl⟩
  cases later with
  | false =>
      refine Reads.see fun line' span => ?_
      rw [hopen, if_neg Bool.false_ne_true]
      exact hread
  | true =>
      have hcomma (line : Nat) (span : Span) :
          form.isClosedBy ⟨.symbol .comma, line, span⟩ = false := by
        cases form <;> rfl
      refine Reads.see fun line' span => ?_
      rw [hcomma, if_neg Bool.false_ne_true]
      exact hread

theorem reads_require : Reads n (require true line) a a (fun _ => True) :=
  Reads.pure trivial

theorem reads_positional {args : Arguments Expr} (hk : args.keywords = []) (hs : args.spread = none)
    (hd : args.spreadKeywords = none)
    (h : Reads n (g.expression true form.filters) (parens ks ++ a) b post) :
    Reads n (parseArgument g form line args) (parens ks ++ a) b
      (fun y => ∃ value, post value ∧
        y = { args with positional := args.positional ++ [value] }) := by
  refine Reads.symbol .mul ?_
  refine Reads.symbol .pow ?_
  show Reads n (parsePlainArgument g form line args) _ _ _
  rw [parsePlainArgument, hk, hs, hd]
  refine reads_require.bind fun _ _ => Reads.see fun line' span => ?_
  refine reads_look_any.bind fun _ _ => reads_require.bind fun _ _ => ?_
  exact h.bind fun value hv => Reads.pure ⟨value, hv, rfl⟩

theorem reads_keyword {args : Arguments Expr} {key : String} (hs : args.spread = none)
    (hd : args.spreadKeywords = none) (h : Reads n (g.expression true form.filters) a b post) :
    Reads n (parseArgument g form line args) (.name key :: .symbol .assign :: a) b
      (fun y => ∃ value line', post value ∧
        y = { args with keywords := args.keywords ++ [⟨key, value, line'⟩] }) := by
  refine Reads.symbol .mul ?_
  refine Reads.symbol .pow ?_
  show Reads n (parsePlainArgument g form line args) _ _ _
  rw [parsePlainArgument, hs, hd]
  refine reads_require.bind fun _ _ => Reads.see fun line' span => ?_
  refine (reads_look (by simp [Token.Kind.type])).bind ?_
  intro _ hy
  obtain ⟨line', span, rfl⟩ := hy
  refine (reads_skip_two (by simp [Token.Kind.type]) (by simp [Token.Kind.type])).bind fun _ _ => ?_
  exact h.bind fun value hv => Reads.pure ⟨value, value.line, hv, rfl⟩

theorem reads_spread {args : Arguments Expr} (hs : args.spread = none)
    (hd : args.spreadKeywords = none) (h : Reads n (g.expression true true) a b post) :
    Reads n (parseArgument g form line args) (.symbol .mul :: a) b
      (fun y => ∃ value, post value ∧ y = { args with spread := some value }) := by
  refine Reads.symbol .mul ?_
  rw [hs, hd]
  refine reads_require.bind fun _ _ => ?_
  refine Reads.drop nofun ?_
  exact h.bind fun value hv => Reads.pure ⟨value, hv, rfl⟩

theorem reads_spreadKeywords {args : Arguments Expr} (hd : args.spreadKeywords = none)
    (h : Reads n (g.expression true true) a b post) :
    Reads n (parseArgument g form line args) (.symbol .pow :: a) b
      (fun y => ∃ value, post value ∧ y = { args with spreadKeywords := some value }) := by
  refine Reads.symbol .mul ?_
  refine Reads.symbol .pow ?_
  show Reads n (do
    require args.spreadKeywords.isNone line
    step
    let value ← g.expression true true
    return { args with spreadKeywords := some value }) _ _ _
  rw [hd]
  refine reads_require.bind fun _ _ => ?_
  refine Reads.drop nofun ?_
  exact h.bind fun value hv => Reads.pure ⟨value, hv, rfl⟩

/-! ### Stretches of arguments -/

/-- What follows an argument: a comma, or the end of the list. -/
def EndsArgument (k : Token.Kind) : Prop :=
  k = .symbol .comma ∨ k = .symbol .rParen

theorem EndsArgument.stops (hk : EndsArgument k) : k.Stops 0 := by
  rcases hk with rfl | rfl <;> exact Token.Kind.stops rfl 0

/-- **What has been read** of an argument list: the same as `args` up to lines, and something if
`later`. -/
def ReadSoFar (args : Arguments Expr) (later : Bool) (y : Arguments Expr × Bool) : Prop :=
  Expr.argumentsWithoutLines y.1 = Expr.argumentsWithoutLines args ∧ y.2 = later

variable {later : Bool} {args : Arguments Expr} {x : Arguments Expr × Bool} {es : List Expr}
  {kws : List (Keyword Expr)} {j : Nat}

/-- The parts of an argument list that have nothing in them yet. -/
theorem ReadSoFar.eq_none (hx : ReadSoFar args later x) :
    (args.keywords = [] → x.1.keywords = []) ∧ (args.spread = none → x.1.spread = none) ∧
      (args.spreadKeywords = none → x.1.spreadKeywords = none) := by
  have h := hx.1
  simp only [Expr.argumentsWithoutLines_eq_map, Arguments.mk.injEq] at h
  obtain ⟨_, hk, hs, hd⟩ := h
  refine ⟨fun h => ?_, fun h => ?_, fun h => ?_⟩
  · simpa [h] using hk
  · simpa [h] using hs
  · simpa [h] using hd

theorem leads_positional (hx : ReadSoFar {} false x) (h : ∀ e ∈ es, Legible env e (e.written st))
    (hb : es ≠ [] → ∃ k rest, b = k :: rest ∧ EndsArgument k) (hj : j < n) :
    Leads j (argumentLoop (below env n) .parentheses line x)
      (argumentLoop (below env n) .parentheses line)
      (following (.symbol .comma) false (es.map fun e => parens (e.written st)) ++ b) b
      (ReadSoFar { positional := es } (!es.isEmpty)) := by
  refine Leads.items (.symbol .comma) false EndsArgument (.inl rfl) (fun e => parens (e.written st))
    (fun done => ReadSoFar { positional := done } (!done.isEmpty)) es ?_ hx hb
  intro done e more hmore y hy k rest hend
  obtain ⟨y, _⟩ := y
  obtain ⟨hy, rfl⟩ := hy
  obtain ⟨hk, hs, hd⟩ := ReadSoFar.eq_none ⟨hy, rfl⟩
  have he : Reads j ((below env n).expression true (ArgumentForm.filters .parentheses))
      (parens (e.written st) ++ k :: rest) (k :: rest) e.Alike :=
    (h e (by simp [hmore])).expression rest hend.stops j hj
  refine (leads_argument _ (l := .symbol .lParen) (a := e.written st ++ [.symbol .rParen])
    (fun _ _ => rfl)
    (reads_positional (hk rfl) (hs rfl) (hd rfl) he)).imp ?_
  intro y hy
  obtain ⟨_, _⟩ := y
  obtain ⟨⟨value, hv, rfl⟩, rfl⟩ := hy
  have hv := hv.eq
  refine ⟨?_, by simp⟩
  simp only [Expr.argumentsWithoutLines_eq_map, Arguments.mk.injEq] at hy ⊢
  simp [hy, hv]

theorem leads_keywords (hx : ReadSoFar ⟨es, [], none, none⟩ later x)
    (h : ∀ w ∈ kws, Legible env w.value (w.value.written st))
    (hb : kws ≠ [] → ∃ k rest, b = k :: rest ∧ EndsArgument k) (hj : j < n) :
    Leads j (argumentLoop (below env n) .parentheses line x)
      (argumentLoop (below env n) .parentheses line)
      (following (.symbol .comma) later (kws.map fun w =>
        .name w.key :: .symbol .assign :: parens (w.value.written st)) ++ b) b
      (ReadSoFar ⟨es, kws, none, none⟩ (later || !kws.isEmpty)) := by
  refine Leads.items (.symbol .comma) later EndsArgument (.inl rfl)
    (fun w => .name w.key :: .symbol .assign :: parens (w.value.written st))
    (fun done => ReadSoFar ⟨es, done, none, none⟩ (later || !done.isEmpty)) kws ?_
    (by simpa using hx) hb
  intro done w more hmore y hy k rest hend
  obtain ⟨y, _⟩ := y
  obtain ⟨hy, rfl⟩ := hy
  obtain ⟨_, hs, hd⟩ := ReadSoFar.eq_none ⟨hy, rfl⟩
  have hw : Reads j ((below env n).expression true (ArgumentForm.filters .parentheses))
      (parens (w.value.written st) ++ k :: rest) (k :: rest) w.value.Alike :=
    (h w (by simp [hmore])).expression rest hend.stops j hj
  refine (leads_argument _ (l := .name w.key)
    (a := .symbol .assign :: parens (w.value.written st))
    (fun _ _ => rfl)
    (reads_keyword (hs rfl) (hd rfl) hw)).imp ?_
  intro y hy
  obtain ⟨_, _⟩ := y
  obtain ⟨⟨value, line', hv, rfl⟩, rfl⟩ := hy
  have hv := hv.eq
  refine ⟨?_, by simp⟩
  simp only [Expr.argumentsWithoutLines_eq_map, Arguments.mk.injEq] at hy ⊢
  simp [hy, hv]

/-- An argument that is spread out, if it is there, behind its mark. -/
theorem leads_marked {mark : Symbol} {o : Option Expr} {after : Arguments Expr}
    (hmark : ∀ line span, ArgumentForm.isClosedBy .parentheses ⟨.symbol mark, line, span⟩ = false)
    (hx : ReadSoFar args later x) (hnone : o = none → after = args)
    (h : ∀ y e k rest, ReadSoFar args later y → e ∈ o → EndsArgument k →
      Reads j (parseArgument g .parentheses line y.1)
        (.symbol mark :: (parens (e.written st) ++ k :: rest)) (k :: rest)
        (fun z => Expr.argumentsWithoutLines z = Expr.argumentsWithoutLines after))
    (hb : o ≠ none → ∃ k rest, b = k :: rest ∧ EndsArgument k) :
    Leads j (argumentLoop g .parentheses line x) (argumentLoop g .parentheses line)
      (following (.symbol .comma) later (o.toList.map fun e =>
        .symbol mark :: parens (e.written st)) ++ b) b (ReadSoFar after (later || o.isSome)) := by
  cases o with
  | none => exact Leads.refl (by simpa [hnone rfl] using hx)
  | some e =>
      obtain ⟨k, rest, rfl, hend⟩ := hb nofun
      have hread := h x e k rest hx rfl hend
      obtain ⟨y, later'⟩ := x
      obtain ⟨_, hlater : later' = later⟩ := hx
      have hlead := leads_argument later (l := .symbol mark) (a := parens (e.written st))
        hmark hread
      rw [hlater]
      simp only [Option.toList, List.map_cons, List.map_nil, following, List.append_nil,
        List.append_assoc]
      refine hlead.imp ?_
      intro y hy
      obtain ⟨_, _⟩ := y
      obtain ⟨hz, rfl⟩ := hy
      exact ⟨hz, by simp⟩

theorem leads_spread {s : Option Expr} (hx : ReadSoFar ⟨es, kws, none, none⟩ later x)
    (h : ∀ e ∈ s, Legible env e (e.written st))
    (hb : s ≠ none → ∃ k rest, b = k :: rest ∧ EndsArgument k) (hj : j < n) :
    Leads j (argumentLoop (below env n) .parentheses line x)
      (argumentLoop (below env n) .parentheses line)
      (following (.symbol .comma) later (s.toList.map fun e =>
        .symbol .mul :: parens (e.written st)) ++ b) b
      (ReadSoFar ⟨es, kws, s, none⟩ (later || s.isSome)) := by
  refine leads_marked (fun _ _ => rfl) hx (by rintro rfl; rfl) ?_ hb
  intro y e k rest hy he hend
  obtain ⟨_, hs, hd⟩ := hy.eq_none
  refine (reads_spread (hs rfl) (hd rfl) ((h e he).expression rest hend.stops j hj)).imp ?_
  intro _ hy
  obtain ⟨value, hv, rfl⟩ := hy
  have hv := hv.eq
  have hy := hy.1
  simp only [Expr.argumentsWithoutLines_eq_map, Arguments.mk.injEq] at hy ⊢
  obtain rfl : s = some e := he
  simp [hy, hv]

theorem leads_spreadKeywords {s d : Option Expr} (hx : ReadSoFar ⟨es, kws, s, none⟩ later x)
    (h : ∀ e ∈ d, Legible env e (e.written st))
    (hb : d ≠ none → ∃ k rest, b = k :: rest ∧ EndsArgument k) (hj : j < n) :
    Leads j (argumentLoop (below env n) .parentheses line x)
      (argumentLoop (below env n) .parentheses line)
      (following (.symbol .comma) later (d.toList.map fun e =>
        .symbol .pow :: parens (e.written st)) ++ b) b
      (ReadSoFar ⟨es, kws, s, d⟩ (later || d.isSome)) := by
  refine leads_marked (fun _ _ => rfl) hx (by rintro rfl; rfl) ?_ hb
  intro y e k rest hy he hend
  obtain ⟨_, _, hd⟩ := hy.eq_none
  refine (reads_spreadKeywords (hd rfl) ((h e he).expression rest hend.stops j hj)).imp ?_
  intro _ hy
  obtain ⟨value, hv, rfl⟩ := hy
  have hv := hv.eq
  have hy := hy.1
  simp only [Expr.argumentsWithoutLines_eq_map, Arguments.mk.injEq] at hy ⊢
  obtain rfl : d = some e := he
  simp [hy, hv]

/-! ### Whole lists -/

/-- What stands behind an argument is a comma or the end of the list. -/
theorem ends_following {later : Bool} (hlater : later = true) (kss : List (List Token.Kind)) :
    ∃ k more, following (.symbol .comma) later kss ++ .symbol .rParen :: rest = k :: more ∧
      EndsArgument k := by
  rw [hlater]
  exact following_first _ _ kss rest

theorem reads_argumentList {args : Arguments Expr}
    (h : ∀ e ∈ args.values, Legible env e (e.written st)) :
    ReadsBelow n (parseArgumentList (below env n) .parentheses line)
      (separated (.symbol .comma) (Expr.writtenEach st (fun _ => parens) args.positional ++
        Expr.writtenKeywords st args.keywords ++ Expr.writtenSpread st .mul args.spread ++
        Expr.writtenSpread st .pow args.spreadKeywords) ++ .symbol .rParen :: rest)
      (.symbol .rParen :: rest)
      (fun x => Expr.argumentsWithoutLines x = Expr.argumentsWithoutLines args) := by
  intro j hj
  obtain ⟨ps, kws, s, d⟩ := args
  simp only [Arguments.values, List.mem_append, List.mem_map, Option.mem_toList] at h
  simp only [separated, List.append_assoc, Expr.writtenEach_eq_map, Expr.writtenKeywords_eq_map,
    Expr.writtenSpread_eq_map]
  -- Each stretch is followed by the ones behind it and the end of the list.
  rw [following_append, List.append_assoc]
  refine (leads_positional (x := ({}, false)) ⟨rfl, rfl⟩ (fun e he => h e (.inl (.inl (.inl he))))
    (fun hne => ends_following (by simp [hne]) _) hj).reads fun x hx => ?_
  rw [following_append, List.append_assoc, List.isEmpty_map, Bool.false_or]
  refine (leads_keywords hx (fun w hw => h _ (.inl (.inl (.inr ⟨w, hw, rfl⟩))))
    (fun hne => ends_following (by simp [hne]) _) hj).reads fun x hx => ?_
  rw [following_append, List.append_assoc, List.isEmpty_map]
  refine (leads_spread hx (fun e he => h e (.inl (.inr he)))
    (fun hne => ends_following (by simp [hne]) _) hj).reads fun x hx => ?_
  rw [List.isEmpty_map]
  have hflag : (!s.toList.isEmpty) = s.isSome := by cases s <;> rfl
  rw [hflag]
  refine (leads_spreadKeywords hx (fun e he => h e (.inr he))
    (fun hne => ⟨_, _, rfl, .inr rfl⟩) hj).reads fun x hx => ?_
  obtain ⟨y, later⟩ := x
  refine Reads.stop (Reads.see fun line' span => ?_)
  exact Reads.pure ⟨y, rfl, hx.1⟩

/-- An argument list begins with a parenthesis. -/
theorem writtenArguments_eq (st : Style) (args : Arguments Expr) :
    ∃ more, Expr.writtenArguments st args = .symbol .lParen :: more := by
  obtain ⟨ps, kws, s, d⟩ := args
  exact ⟨_, rfl⟩

/-- **An argument list** in parentheses. -/
theorem reads_arguments {args : Arguments Expr} (rest : List Token.Kind)
    (h : ∀ e ∈ args.values, Legible env e (e.written st)) :
    Reads n (parseArguments (below env n)) (Expr.writtenArguments st args ++ rest) rest
      (fun x => Expr.argumentsWithoutLines x = Expr.argumentsWithoutLines args) := by
  obtain ⟨ps, kws, s, d⟩ := args
  rw [Expr.writtenArguments, parens, List.cons_append, List.append_assoc]
  refine Reads.see fun line' span => ?_
  refine Reads.drop_lt (by rintro ⟨⟩) ?_
  refine (reads_argumentList h).bind fun x hx => Reads.below ?_
  exact Reads.drop (by rintro ⟨⟩) <| Reads.pure hx

end LiquidTemplate
