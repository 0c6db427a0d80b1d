import LiquidTemplate.Proofs.Operands.LoopModifiers
import LiquidTemplate.Proofs.Progress.Grammars
import LiquidTemplate.Proofs.RoundTrip.Bodies
import LiquidTemplate.Proofs.RoundTrip.Targets

/-!
# Conditions of recursive loops

Behind the condition of a loop can stand the word that says that the loop is recursive. It does not go
on with the condition, unless that ends with a test without arguments: then the word is the argument of
the test.

* `Environment.Spells.reads_condition`: a condition before the word.
* `reads_recursiveLoop`: a loop from behind its target on.
* `loop_test_before_recursive`: the loop.
-/

namespace LiquidTemplate

open LiquidTemplate.Parser LiquidTemplate.Grammar

variable {env : Environment} {n line : Nat} {s u : ParserState} {rest ks : List Token.Kind}
  {k : Token.Kind} {e target : Expr} {iter : Enclosed}

/-- **The word behind a condition** does not go on with it. -/
theorem stops_recursive (tok : Token) (h : tok.kind = .name "recursive") : tok.Stops :=
  .inr (.inr (.inr ⟨"recursive", h, by decide⟩))

/-- **A condition** before the word, if it does not end with a test without arguments. -/
theorem Environment.Spells.reads_condition (h : env.Spells ks e) (hbare : hasBareTest ks = false) :
    Reads n (parseExpression env.grammar true true) (ks ++ .name "recursive" :: rest)
      (.name "recursive" :: rest) e.Alike := by
  intro s hs _
  -- The grammar of the environment agrees with a bounded one.
  have hsame := (tracks_expression (follows_below env s.weight) true true s s.on_route
    (Nat.lt_succ_self _)).same
  rw [← hsame]
  exact h.reads stops_recursive (.inr hbare) s hs (Nat.le_refl _)

/-- A condition ends an iterable without modifiers. -/
theorem endAt_if : LoopModifier.EndAt [] (.name "if") where
  word x := by cases x <;> simp [LoopModifier.word]
  base _ := by
    refine ⟨fun tier htier => .inl ⟨?_, rfl⟩, by rintro ⟨⟩⟩
    exact (Option.some.inj htier).symm
  last := by rintro _ ⟨⟩

/-- **The iterable and the condition** of a loop. -/
theorem reads_iterableBefore (h : env.Spells iter.kinds iter.tree) :
    Reads n (parseIterable env.grammar) (iter.written ++ .name "if" :: rest) (.name "if" :: rest)
      iter.tree.Alike := by
  have hnone : ∀ x ∈ ([] : List LoopModifier), ∀ v ∈ x.value?, v.ReadBy n env.grammar :=
    fun _ hx => nomatch hx
  exact reads_modified h.readBy_grammar hnone endAt_if

theorem reads_conditionOf (h : env.Spells ks e) (hbare : hasBareTest ks = false) :
    Reads n (parseLoopTest? env.grammar) (.name "if" :: (ks ++ .name "recursive" :: rest))
      (.name "recursive" :: rest) (fun test => ∃ x, test = some x ∧ e.Alike x) := by
  refine Reads.skips nofun rfl ?_
  exact (h.reads_condition hbare).bind fun x hx => Reads.pure ⟨x, rfl, hx⟩

/-- **The body of a loop** that is empty, and its end. -/
theorem reads_emptyBody :
    Reads n (parseStatements env.grammar [.name "endfor", .name "else"] false)
      (inside [] "endfor" ++ rest) (.name "endfor" :: rest) (fun ss => ss = []) := by
  have hread : Reads n (parseStatements env.grammar [.name "endfor", .name "else"] false)
      (inside (Stmt.listWritten false []) "endfor" ++ rest) (.name "endfor" :: rest)
      (Stmt.AllAlike []) := by
    have hnone : ∀ t ∈ ([] : List Stmt), Placeable env false t := fun _ ht => nomatch ht
    exact reads_statements (serves_grammar env n) (by decide) (by decide) hnone
      (by simp [Stmt.Separated]) false
  exact hread.imp fun ss hss => by simpa using hss.eq

/-- **From behind its target on** a loop over parentheses with a condition is read to its end. -/
theorem reads_recursiveLoop (hiter : env.Spells iter.kinds iter.tree) (htest : env.Spells ks e)
    (hbare : hasBareTest ks = false) (target : Expr) (line : Nat) :
    Reads n
      (do
        let _ ← expectName "in"
        let iter ← parseIterable env.grammar
        let test ← parseLoopTest? env.grammar
        let recursive ← skipName "recursive"
        let body ← parseStatements env.grammar [.name "endfor", .name "else"] false
        let otherwise ← parseLoopElse env.grammar
        return .forLoop target iter body otherwise test recursive line : Parser Stmt)
      (.name "in" :: (iter.written ++
        .name "if" :: (ks ++ .name "recursive" :: (inside [] "endfor" ++ rest))))
      rest
      (fun x => ∃ i test, x = .forLoop target i [] [] (some test) true line ∧ iter.tree.Alike i ∧
        e.Alike test) := by
  refine Reads.demand nofun rfl fun _ _ => ?_
  refine (reads_iterableBefore hiter).bind fun i hi => ?_
  refine (reads_conditionOf htest hbare).bind fun test hsome => ?_
  obtain ⟨x, rfl, hx⟩ := hsome
  refine Reads.skips nofun rfl ?_
  refine reads_emptyBody.bind fun body hbody => ?_
  have helse : Reads n (parseLoopElse env.grammar) (.name "endfor" :: rest) rest (fun ss => ss = []) :=
    Reads.take nofun fun _ _ => Reads.pure rfl
  refine helse.bind fun otherwise hotherwise => Reads.pure ?_
  rw [hbody, hotherwise]
  exact ⟨i, x, rfl, hi, hx⟩

/-- **The condition of a recursive loop.** Let the target of a loop be read up to its `in`, and behind
it an iterable in parentheses, `if`, tokens that are one expression by themselves, the word `recursive`
and an empty body. If the expression does not end with a test without arguments, the loop succeeds, has
that expression as its condition up to lines, and is recursive. -/
theorem loop_test_before_recursive (env : Environment) (iter : Enclosed)
    (ks : List Token.Kind) (e : Expr) (hfor : s.stream.current.kind = .name "for")
    (htarget : parseTarget env.grammar true [.name "in"] s.stepped = .ok target u)
    (hu : u.ahead = .name "in" :: (iter.written ++
      .name "if" :: (ks ++ .name "recursive" :: (inside [] "endfor" ++ rest))))
    (hiter : env.Spells iter.kinds iter.tree) (htest : env.Spells ks e)
    (hbare : hasBareTest ks = false) :
    ∃ i test t, parseFor env.grammar s =
        .ok (.forLoop target i [] [] (some test) true s.stream.current.line) t ∧
      iter.tree.Alike i ∧ e.Alike test ∧ t.ahead = rest := by
  have hname : expectName "for" s = .ok s.stream.current s.stepped :=
    expect_eq_ok.2 ⟨by simp [Token.fits, Token.isName, Token.name?, hfor], rfl, rfl⟩
  obtain ⟨x, t, hx, ht, -, i, test, rfl, hi, he⟩ :=
    reads_recursiveLoop hiter htest hbare target s.stream.current.line u hu (Nat.le_refl _)
  refine ⟨i, test, t, ?_, hi, he, ht⟩
  exact bind_eq_ok.2 ⟨_, _, hname, bind_eq_ok.2 ⟨target, u, htarget, hx⟩⟩

/-- **A name** is a target of a loop. -/
theorem reads_loopName {g : Grammar} {name : String} (hn : name ∉ Expr.reservedNames)
    (hin : name ≠ "in") :
    Reads n (parseTarget g true [.name "in"]) (.name name :: .name "in" :: rest) (.name "in" :: rest)
      (fun x => ∃ line, x = .name name .store line) := by
  have hprimary : Reads n (parsePrimary g) (.name name :: .name "in" :: rest) (.name "in" :: rest)
      (fun x => ∃ line, x = .name name .load line) := by
    refine Reads.see fun line span => Reads.drop (by rintro ⟨⟩) ?_
    rw [Constant.ofName?_eq_none hn]
    exact Reads.pure ⟨line, rfl⟩
  have hopen (line : Nat) (span : Span) :
      isTupleEnd [.name "in"] ⟨.name name, line, span⟩ = false := by
    simpa [isTupleEnd, Token.fitsAny, Token.fits, Token.isName, Token.name?, Token.isMark,
      Token.isSymbol, Token.type, Token.Kind.type] using hin
  have hcomma : Token.Kind.name "in" ≠ .symbol .comma := by rintro ⟨⟩
  have htuple : Reads n (parseTuple g .primary [.name "in"] false)
      (.name name :: .name "in" :: rest) (.name "in" :: rest)
      (fun x => ∃ line, x = .name name .load line) :=
    reads_tuple_one hopen hcomma hprimary
  refine htuple.bind fun x hx => ?_
  obtain ⟨line, rfl⟩ := hx
  have hassign : (Expr.name name .store line).isAssignable = true := by
    have hconstant : name ∉ Expr.constantNames := fun hmem => hn (List.mem_cons_of_mem _ hmem)
    simpa [Expr.isAssignable] using hconstant
  exact (reads_assignable hassign).imp fun x hx => ⟨line, hx⟩

/-- `for x in (y) if z recursive` has the condition `z`. -/
theorem loop_test_before_recursive_name :
    let y : Expr := .name "y" .load 1
    let z : Expr := .name "z" .load 1
    let s := ParserState.before [.name "for", .name "x", .name "in", .symbol .lParen, .name "y",
      .symbol .rParen, .name "if", .name "z", .name "recursive", .mark .blockEnd, .mark .blockBegin,
      .name "endfor", .mark .blockEnd]
    ∃ line i test t, parseFor (Environment.grammar {}) s =
        .ok (.forLoop (.name "x" .store line) i [] [] (some test) true 1) t ∧
      y.Alike i ∧ z.Alike test ∧ t.ahead = [.mark .blockEnd, .mark .endOfTemplate] := by
  intro y z s
  have hy : Environment.Spells {} [.name "y"] y := Environment.spells_name {} (by decide) 1
  have hz : Environment.Spells {} [.name "z"] z := Environment.spells_name {} (by decide) 1
  obtain ⟨_, u, htarget, hu, -, line, rfl⟩ := reads_loopName (g := Environment.grammar {}) (by decide)
    (by decide) s.stepped rfl (Nat.le_refl _)
  refine ⟨line, ?_⟩
  exact loop_test_before_recursive (s := s) {} ⟨[.name "y"], y⟩ [.name "z"] z rfl htarget hu
    hy hz rfl

end LiquidTemplate
