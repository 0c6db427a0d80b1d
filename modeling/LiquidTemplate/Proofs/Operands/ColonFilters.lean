import LiquidTemplate.Proofs.Operands.ArgumentLists

/-!
# Filters behind a colon list

A filter without arguments that stands behind a colon list applies to the whole filter before it,
unless the last argument is spread out: then it applies to the value of that argument, because filters
can stand on such a value in every form of a list.

* `leads_bareFilter`, `reads_colonFilter`: a filter without arguments, and one with a colon list.
* `reads_pipedList`: a list whose last argument takes the filter behind it.
* `Expr.filteredBehind`: what the last filter applies to.
* `filter_behind_colon`: the whole expression.
-/

namespace LiquidTemplate

open LiquidTemplate.Parser LiquidTemplate.Grammar

variable {env : Environment} {form : ArgumentForm} {n : Nat} {g : Grammar} {s : ParserState}
  {e e' : Expr} {a rest ks : List Token.Kind} {k close : Token.Kind} {post : Expr → Prop}
  {items : List EnclosedArgument} {x : EnclosedArgument} {args : Arguments Expr} {node : Enclosed}

/-! ### Filters behind parentheses -/

/-- **Filters behind parentheses** up to the end of the expression are the whole expression. -/
theorem reads_of_trailers (hk : k.Stops 0)
    (h : Leads n (parseSigned g true) (parseTrailers g) (parens ks ++ a) (k :: rest) post) :
    Reads n (parseExpression g true true) (parens ks ++ a) (k :: rest) post := by
  have hsigned : Reads n (parseLevel g 9) (parens ks ++ a) (k :: rest) post :=
    h.reads fun x hx => (reads_trailers_end (hk.mono (by omega)) x).imp fun _ hy => hy ▸ hx
  exact reads_down (Nat.zero_le 9) (by omega) hk Begins.parens.append hsigned

/-- Parentheses lead to the filters behind them. -/
theorem Environment.Spells.trailed (h : env.Spells node.kinds node.tree) :
    Trailed env node.tree node.written :=
  trailed_of_reads fun _ _ _ hk _ =>
    reads_primary nofun nofun (hk.mono (by omega)) (reads_parens (h.readBy_below.group _))

theorem Expr.Alike.filter {args args' : Arguments Expr} {name : String} {line line' : Nat}
    (h : e.Alike e') (hargs : Expr.argumentsWithoutLines args' = Expr.argumentsWithoutLines args) :
    (Expr.filter (some e) name args line).Alike (.filter (some e') name args' line') := by
  simp only [Expr.Alike, Expr.withoutLines, Expr.optionWithoutLines_eq_map, Option.map_some, h.eq, hargs]

/-- **A filter without arguments.** -/
theorem leads_bareFilter (name : String) (rest : List Token.Kind) (hk : k.Stops 10)
    (hsticks : ¬ k.Sticks) (h : e.Alike e') :
    Leads n (parseTrailers (below env n) e') (parseTrailers (below env n))
      (.symbol .pipe :: (nameKinds name ++ k :: rest)) (k :: rest)
      (Expr.filter (some e) name {} 0).Alike := by
  have hname : Reads n (parseFilterName (below env n) (some e')) (nameKinds name ++ k :: rest)
      (k :: rest) (fun y => ∃ args line, y = .filter (some e') name args line ∧
        Expr.argumentsWithoutLines args = Expr.argumentsWithoutLines {}) := by
    have hnone : ∀ e ∈ Arguments.values {}, Legible env e (e.written .sparse) := nofun
    exact reads_filterName name (some e') rest hnone hk hsticks
  refine (leads_filter hname).imp ?_
  intro _ hy
  obtain ⟨args, line, rfl, hargs⟩ := hy
  exact h.filter hargs

/-- **A filter on parentheses** is a whole expression. -/
theorem Environment.Spells.filtered (h : env.Spells node.kinds node.tree) (name : String)
    (rest : List Token.Kind) (hk : k.Stops 0) (hsticks : ¬ k.Sticks) :
    ReadsBelow n ((below env n).expression true true)
      (node.written ++ (.symbol .pipe :: nameKinds name ++ k :: rest)) (k :: rest)
      (Expr.filter (some node.tree) name {} 0).Alike := by
  rw [below_expression]
  refine reads_guarded (p := fun j => parseExpression (below env j) true true) fun j _ => ?_
  refine reads_of_trailers hk ((h.trailed j _ _ Token.Kind.stops_pipe nofun).trans fun y hy => ?_)
  exact leads_bareFilter name rest (hk.mono (by omega)) hsticks hy

/-! ### Colon lists before a pipe -/

/-- **A filter with a colon list.** -/
theorem reads_colonFilter (name : String)
    (h : Reads n (parseArguments g) (EnclosedArgument.list .colon items false close ks) (k :: rest)
      (fun z => Expr.argumentsWithoutLines z = Expr.argumentsWithoutLines args)) (he : e.Alike e') :
    Reads n (parseFilterName g (some e'))
      (nameKinds name ++ EnclosedArgument.list .colon items false close ks) (k :: rest)
      (Expr.filter (some e) name args 0).Alike := by
  refine reads_name nofun fun t => Reads.bind (Reads.see fun line span => h) fun z hz => ?_
  exact Reads.pure (he.filter hz)

theorem EnclosedArgument.append_list (ks : List Token.Kind) (items : List EnclosedArgument)
    (rest : List Token.Kind) :
    ks ++ list form items false close rest =
      (ks ++ form.opening :: separated (.symbol .comma) (items.map written)) ++ close :: rest := by
  simp [list]

/-- **The last argument takes the filter behind it** if it is spread out. -/
theorem reads_pipedList (name : String) (rest : List Token.Kind)
    (ha : items.map EnclosedArgument.argument = args.toList) (hx : args.Admits x.argument)
    (hvalues : ∀ y ∈ items ++ [x], env.Spells y.inner y.argument.value)
    (hspread : x.filters .colon = true) (hclose : close ∈ ArgumentForm.colon.closings) :
    Reads n (parseArguments (below env n))
      (EnclosedArgument.list .colon (items ++ [x]) false (.symbol .pipe)
        (nameKinds name ++ close :: rest))
      (close :: rest)
      (fun z => Expr.argumentsWithoutLines z = Expr.argumentsWithoutLines
        (args.add (x.argument.withValue (.filter (some x.argument.value) name {} 0)))) := by
  have hclosed := ArgumentForm.isClosedBy_of_mem hclose
  have hsticks : ¬ close.Sticks := by
    rcases List.mem_pair.1 hclose with rfl | rfl <;> nofun
  refine reads_ofForm hclosed fun line j hj => ?_
  have hvalue : Reads j ((below env n).expression true (x.filters .colon))
      (parens x.inner ++ (.symbol .pipe :: nameKinds name ++ close :: rest)) (close :: rest)
      (Expr.filter (some x.argument.value) name {} 0).Alike := by
    have hx : env.Spells x.value.kinds x.value.tree := hvalues x (by simp)
    rw [hspread]
    exact hx.filtered name rest (ArgumentForm.stops_of_mem hclose) hsticks j hj
  rw [EnclosedArgument.separated_append, List.map_nil, following, List.nil_append]
  refine (leads_enclosedArguments ha
    (fun y hy => (hvalues y (List.mem_append_left _ hy)).readBy_below)
    (EnclosedArgument.ends_comma items _) hj).reads fun y hy => ?_
  refine (leads_argumentWith hx hy hvalue).reads fun z hz => ?_
  exact reads_argumentLoop_end hz hclosed

/-! ### What the last filter applies to -/

/-- **A filter behind a colon list**: `node`, filtered by `f` with the arguments `args`, of which
`last` is the last one, and then by `g`. -/
def Expr.filteredBehind (node : Expr) (f : String) (args : Arguments Expr) (last : Argument)
    (g : String) : Expr :=
  match last with
  | .positional _ | .keyword .. => .filter (some (.filter (some node) f args 0)) g {} 0
  | .spread e => .filter (some node) f { args with spread := some (.filter (some e) g {} 0) } 0
  | .spreadKeywords e =>
    .filter (some node) f { args with spreadKeywords := some (.filter (some e) g {} 0) } 0

theorem Expr.filteredBehind_of_plain (hplain : x.filters .colon = false) (node : Expr) (f g : String) :
    node.filteredBehind f args x.argument g = .filter (some (.filter (some node) f args 0)) g {} 0 := by
  obtain ⟨argument, ks⟩ := x
  cases argument with
  | positional | keyword => rfl
  | spread | spreadKeywords => nomatch hplain

/-- Behind an argument that is spread out, only the value of that argument is another one. -/
theorem Expr.filteredBehind_of_spread (hspread : x.filters .colon = true) (node : Expr) (f g : String)
    {c : Arguments Expr}
    (hc : Expr.argumentsWithoutLines (c.add x.argument) = Expr.argumentsWithoutLines args) :
    (node.filteredBehind f args x.argument g).Alike (.filter (some node) f
      (c.add (x.argument.withValue (.filter (some x.argument.value) g {} 0))) 0) := by
  obtain ⟨argument, ks⟩ := x
  cases argument with
  | positional | keyword => nomatch hspread
  | spread | spreadKeywords =>
    refine Expr.Alike.filter rfl ?_
    simp_all [Arguments.add, Argument.withValue, Argument.value]

section FilteredBehind

variable {f : String} (name : String) (hvalues : ∀ y ∈ items ++ [x], env.Spells y.inner y.argument.value)
  (hargs : (items ++ [x]).map EnclosedArgument.argument = args.toList) (he : e.Alike e')
include hvalues hargs he

/-- Behind a last argument that is not spread out a filter applies to the whole filter. -/
theorem leads_filter_of_plain (rest : List Token.Kind) (hplain : x.filters .colon = false) :
    Leads n (parseTrailers (below env n) e') (parseTrailers (below env n))
      (.symbol .pipe :: (nameKinds f ++ EnclosedArgument.list .colon (items ++ [x]) false
        (.symbol .pipe) (nameKinds name ++ .mark .variableEnd :: rest)))
      (.mark .variableEnd :: rest) (e.filteredBehind f args x.argument name).Alike := by
  have hpipe :
      ∀ y ∈ (items ++ [x]).getLast?, Token.Kind.Ends true (y.filters .colon) (.symbol .pipe) := by
    intro y hy tier htier
    obtain rfl : x = y := by simpa using hy
    obtain rfl : 9 = tier := Option.some.inj htier
    exact .inr ⟨rfl, hplain⟩
  have hlist : Reads n (parseArguments (below env n)) (EnclosedArgument.list .colon (items ++ [x]) false
      (.symbol .pipe) (nameKinds name ++ .mark .variableEnd :: rest))
      (.symbol .pipe :: (nameKinds name ++ .mark .variableEnd :: rest))
      (fun z => Expr.argumentsWithoutLines z = Expr.argumentsWithoutLines args) :=
    reads_enclosedList hargs (fun y hy => (hvalues y hy).readBy_below) (fun _ _ => rfl)
      (fun _ => hpipe) nofun
  have hname := reads_colonFilter f hlist he
  rw [EnclosedArgument.append_list] at hname ⊢
  refine (leads_filter hname).trans fun y hy => ?_
  rw [Expr.filteredBehind_of_plain hplain]
  exact leads_bareFilter name rest (Token.Kind.stops rfl 10) nofun hy

/-- Behind one that is spread out it applies to the value of that argument. -/
theorem leads_filter_of_spread (rest : List Token.Kind) (hspread : x.filters .colon = true) :
    Leads n (parseTrailers (below env n) e') (parseTrailers (below env n))
      (.symbol .pipe :: (nameKinds f ++ EnclosedArgument.list .colon (items ++ [x]) false
        (.symbol .pipe) (nameKinds name ++ .mark .variableEnd :: rest)))
      (.mark .variableEnd :: rest) (e.filteredBehind f args x.argument name).Alike := by
  rw [List.map_append] at hargs
  obtain ⟨c, hc, hx, hadd⟩ := Arguments.exists_of_toList_concat hargs.symm
  have hlist := reads_pipedList (n := n) name rest hc.symm hx hvalues hspread (.head _)
  have hname := reads_colonFilter f hlist he
  have hsplit : nameKinds f ++ EnclosedArgument.list .colon (items ++ [x]) false (.symbol .pipe)
        (nameKinds name ++ .mark .variableEnd :: rest) =
      (nameKinds f ++ .symbol .colon ::
        separated (.symbol .comma) ((items ++ [x]).map EnclosedArgument.written) ++
          .symbol .pipe :: nameKinds name) ++ .mark .variableEnd :: rest := by
    simp [EnclosedArgument.list, ArgumentForm.opening]
  rw [hsplit] at hname ⊢
  refine (leads_filter hname).imp fun y hy => ?_
  exact hy.eq.trans (Expr.filteredBehind_of_spread hspread e f name hadd).eq

end FilteredBehind

/-- **Filters in a row with a colon list.** Up to lines, a filter `g` behind a filter `f` with a colon
list applies to the whole filter `f` if the last argument has a name or none. If it is spread out, `g`
applies to its value. -/
theorem filter_behind_colon (env : Environment) (node : Enclosed) (f g : String)
    (items : List EnclosedArgument) (last : EnclosedArgument)
    (hnode : env.Spells node.kinds node.tree)
    (hvalues : ∀ x ∈ items ++ [last], env.Spells x.inner x.argument.value)
    (hargs : (items ++ [last]).map EnclosedArgument.argument = args.toList)
    (hs : s.ahead = node.written ++ .symbol .pipe :: (nameKinds f ++
      EnclosedArgument.list .colon (items ++ [last]) false (.symbol .pipe)
        (nameKinds g ++ .mark .variableEnd :: rest))) :
    ∃ e t, env.grammar.expression true true s = .ok e t ∧
      (node.tree.filteredBehind f args last.argument g).Alike e ∧
      t.ahead = .mark .variableEnd :: rest := by
  have hlead : Leads s.weight (parseSigned (below env s.weight) true)
      (parseTrailers (below env s.weight)) (node.written ++ .symbol .pipe :: (nameKinds f ++
        EnclosedArgument.list .colon (items ++ [last]) false (.symbol .pipe)
          (nameKinds g ++ .mark .variableEnd :: rest)))
      (.mark .variableEnd :: rest) (node.tree.filteredBehind f args last.argument g).Alike := by
    refine (hnode.trailed _ _ _ Token.Kind.stops_pipe nofun).trans fun y hy => ?_
    cases hfilters : last.filters .colon with
    | false => exact leads_filter_of_plain g hvalues hargs hy rest hfilters
    | true => exact leads_filter_of_spread g hvalues hargs hy rest hfilters
  obtain ⟨e, t, he, ht, -, hsame⟩ :=
    reads_of_trailers (Token.Kind.stops rfl 0) hlead s hs (Nat.le_refl _)
  exact ⟨e, t, he, hsame, ht⟩

/-- `(x) | f: *(x) | g` is `(x)` filtered by `f` alone, whose list that is spread out is `(x) | g`. -/
theorem filter_behind_colon_spread :
    let x : Expr := .name "x" .load 1
    let s := ParserState.before [.symbol .lParen, .name "x", .symbol .rParen, .symbol .pipe,
      .name "f", .symbol .colon, .symbol .mul, .symbol .lParen, .name "x", .symbol .rParen,
      .symbol .pipe, .name "g", .mark .variableEnd]
    ∃ e t, (Environment.grammar {}).expression true true s = .ok e t ∧
      (Expr.filter (some x) "f" { spread := some (.filter (some x) "g" {} 0) } 0).Alike e ∧
      t.ahead = [.mark .variableEnd, .mark .endOfTemplate] := by
  intro x s
  have hx : Environment.Spells {} [.name "x"] x := Environment.spells_name {} (by decide) 1
  have hf : nameKinds "f" = [.name "f"] := nameKinds_eq_singleton (by decide)
  have hg : nameKinds "g" = [.name "g"] := nameKinds_eq_singleton (by decide)
  have hargs : [Argument.spread x] = (Arguments.mk [] [] (some x) none).toList := rfl
  refine filter_behind_colon {} ⟨[.name "x"], x⟩ "f" "g" [] ⟨.spread x, [.name "x"]⟩ hx ?_ hargs ?_
  · intro y hy
    obtain rfl := List.mem_singleton.1 hy
    exact hx
  · rw [hf, hg]
    rfl

end LiquidTemplate
