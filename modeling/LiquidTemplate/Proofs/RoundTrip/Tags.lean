import LiquidTemplate.Proofs.RoundTrip.Targets

/-!
# Tags

Each statement is read from its tag on, if its bodies are made of statements that are.

* `opens_builtin`: what to prove of a tag.
* `reads_alternatives`: a body with an alternative or without one.
* `opens_forLoop` and its like: one for each kind of statement.
-/

namespace LiquidTemplate

open LiquidTemplate.Parser LiquidTemplate.Grammar

variable {env : Environment} {elses : Bool} {n line : Nat} {g : Grammar} {e x : Expr} {s : Stmt}
  {body otherwise : List Stmt} {a b rest ks : List Token.Kind} {k l : Token.Kind}

/-! ### Common parts -/

/-- The parser of a tag that every environment has opens the statement. -/
theorem opens_builtin {tag : String} (p : Grammar → Parser Stmt)
    (hks : s.written elses = between (.name tag :: ks)) (htag : tag ∈ statementTags)
    (hp : ∀ g, builtin? g tag = some (p g))
    (h : ∀ n rest, Reads n (p (below env n)) (.name tag :: (ks ++ .mark .blockEnd :: rest))
      (.mark .blockEnd :: rest) s.Alike) : Opens env elses s := by
  refine ⟨tag, ks, hks, htag, fun n rest => Reads.see fun line span => ?_⟩
  have hparser : tag? env (below env n) tag = some (Expansion.single <$> p (below env n)) := by
    rw [tag?, hp]
  simp only [Token.name?, hparser]
  exact ((h n rest).map fun t ht => ⟨t, rfl, ht⟩).inTag tag

/-- A body between two tags begins with the end of the first. -/
theorem inside_append (ks : List Token.Kind) (tag : String) (rest : List Token.Kind) :
    inside ks tag ++ rest =
      .mark .blockEnd :: (ks ++ .mark .blockBegin :: .name tag :: rest) := by
  simp [inside]

/-- **The body of a statement** up to its end tag. -/
theorem reads_closed {tag closing : String} (rest : List Token.Kind)
    (htag : endTag tag = .name closing) (hends : onlyEnds [.name closing] = true)
    (h : ∀ s ∈ body, Placeable env elses s) (hsep : Stmt.Separated body) :
    Reads n (parseStatements (below env n) [endTag tag] true)
      (inside (Stmt.listWritten elses body) closing ++ rest) rest (Stmt.AllAlike body) := by
  rw [htag]
  exact reads_statements (serves_below env n) hends (List.mem_singleton.2 rfl) h hsep true

/-- **A word that is there or not.** -/
theorem reads_flag (flag : Bool) (word : String) (hk : k.fits (.name word) = false) :
    Reads n (skipName word) (flagKinds flag [word] ++ k :: rest) (k :: rest)
      (fun found => found = flag) := by
  cases flag with
  | false => exact reads_skipIf_not hk
  | true => exact reads_skipIf nofun (beq_self_eq_true word)

/-- A body with an alternative begins with the end of the tag before it. -/
theorem alternatives_append (both : Bool) (body otherwise : List Token.Kind) (tag : String)
    (rest : List Token.Kind) :
    ∃ a, alternatives both body otherwise tag ++ rest = .mark .blockEnd :: a := by
  cases both <;> exact ⟨_, rfl⟩

/-- **A body and its alternative**, where `p` reads the alternative from the name of its tag on. -/
theorem reads_alternatives {ends : List TokenRule} {tag : String} {p : Parser (List Stmt)}
    {make : List Stmt → List Stmt → Stmt} (hends : onlyEnds ends = true) (htag : .name tag ∈ ends)
    (helse : .name "else" ∈ ends) (hb : ∀ s ∈ body, Placeable env elses s)
    (hsb : Stmt.Separated body)
    (hnone : Reads n p (.name tag :: rest) rest (fun ss => ss = []))
    (hsome : Reads n p (.name "else" :: (inside (Stmt.listWritten elses otherwise) tag ++ rest))
      rest (Stmt.AllAlike otherwise)) :
    Reads n (do
        let body ← parseStatements (below env n) ends false
        let otherwise ← p
        return make body otherwise)
      (alternatives (elses || !otherwise.isEmpty) (Stmt.listWritten elses body)
        (Stmt.listWritten elses otherwise) tag ++ rest) rest
      (fun t => ∃ b o, Stmt.AllAlike body b ∧ Stmt.AllAlike otherwise o ∧ t = make b o) := by
  have hg := serves_below env n
  cases hboth : elses || !otherwise.isEmpty with
  | true =>
      rw [alternatives, if_pos rfl, List.append_assoc]
      refine (reads_statements hg hends helse hb hsb false).bind fun ss hss => ?_
      exact hsome.bind fun os hos => Reads.pure ⟨ss, os, hss, hos, rfl⟩
  | false =>
      have hempty : otherwise = [] := by
        cases otherwise with
        | nil => rfl
        | cons s ss => simp at hboth
      rw [alternatives, if_neg Bool.false_ne_true]
      refine (reads_statements hg hends htag hb hsb false).bind fun ss hss => ?_
      refine hnone.bind fun os hos => Reads.pure ⟨ss, os, hss, ?_, rfl⟩
      rw [hos, hempty]
      rfl

/-! ### Statements without a body -/

theorem opens_extendsTemplate (he : e.Readable) :
    Opens env elses (.extendsTemplate e line) := by
  refine opens_builtin parseExtends rfl (by decide) (fun _ => rfl) fun n rest => ?_
  refine Reads.take nofun fun _ _ => ?_
  refine (reads_operand he (Token.Kind.stops rfl 0)).bind fun x hx => Reads.pure ?_
  exact congrArg (Stmt.extendsTemplate · 0) hx

theorem opens_breakLoop : Opens env elses (.breakLoop line) :=
  opens_builtin (fun _ => parseBreak) rfl (by decide) (fun _ => rfl) fun _ _ =>
    Reads.take nofun fun _ _ => Reads.pure rfl

theorem opens_continueLoop : Opens env elses (.continueLoop line) :=
  opens_builtin (fun _ => parseContinue) rfl (by decide) (fun _ => rfl) fun _ _ =>
    Reads.take nofun fun _ _ => Reads.pure rfl

/-- The words that say that a missing template is no error. -/
theorem reads_ignoreMissing (flag withContext : Bool) :
    Reads n parseIgnoreMissing
      (flagKinds flag ["ignore", "missing"] ++ (contextKinds withContext ++ rest))
      (contextKinds withContext ++ rest) (fun found => found = flag) := by
  cases flag with
  | true =>
      refine Reads.see fun _ _ => (reads_look (k := .name "ignore") nofun).bind fun t ht => ?_
      obtain ⟨_, _, rfl⟩ := ht
      refine (reads_skip_two (k := .name _) (l := .name _) nofun nofun).bind fun _ _ => ?_
      exact Reads.pure rfl
  | false =>
      have hword (line : Nat) (span : Span) : Token.isName
          ⟨.name (if withContext then "with" else "without"), line, span⟩ "ignore" = false := by
        cases withContext <;> rfl
      refine Reads.see fun line span => reads_look_any.bind fun t _ => ?_
      rw [hword, Bool.false_and, if_neg Bool.false_ne_true]
      exact Reads.pure rfl

/-- **Another template** with what is said about it. -/
theorem reads_inclusion {make : Expr → Bool → Bool → Nat → Stmt} {tag : String}
    {ignoreMissing withContext : Bool} (he : e.Readable)
    (hmake : ∀ x ignoreMissing withContext line,
      (make x ignoreMissing withContext line).withoutLines =
        make x.withoutLines ignoreMissing withContext 0) :
    Reads n (parseInclusion (below env n) make)
      (.name tag :: ((e.enclosed ++ (flagKinds ignoreMissing ["ignore", "missing"] ++
        contextKinds withContext)) ++ .mark .blockEnd :: rest)) (.mark .blockEnd :: rest)
      (make e ignoreMissing withContext line).Alike := by
  have hnext : ∃ k a, flagKinds ignoreMissing ["ignore", "missing"] ++
      (contextKinds withContext ++ .mark .blockEnd :: rest) = k :: a ∧ k.Stops 0 := by
    cases ignoreMissing <;> cases withContext <;> exact ⟨_, _, rfl, Token.Kind.stops rfl 0⟩
  obtain ⟨k, a, hka, hk⟩ := hnext
  rw [List.append_assoc, List.append_assoc, hka]
  refine Reads.take nofun fun _ _ => ?_
  refine (reads_operand he hk).bind fun x hx => ?_
  rw [← hka]
  refine (reads_ignoreMissing ignoreMissing withContext).bind fun flag hflag => ?_
  refine (reads_context withContext).bind fun c hc => Reads.pure ?_
  subst hflag hc
  rw [Stmt.Alike, hmake, hmake, hx.eq]
  rfl

theorem opens_includeTemplate {ignoreMissing withContext : Bool} (he : e.Readable) :
    Opens env elses (.includeTemplate e ignoreMissing withContext line) :=
  opens_builtin parseInclude rfl (by decide) (fun _ => rfl) fun _ _ =>
    reads_inclusion he fun _ _ _ _ => rfl

theorem opens_sectionTemplate {ignoreMissing withContext : Bool} (he : e.Readable) :
    Opens env elses (.sectionTemplate e ignoreMissing withContext line) :=
  opens_builtin parseSection rfl (by decide) (fun _ => rfl) fun _ _ =>
    reads_inclusion he fun _ _ _ _ => rfl

theorem opens_importTemplate {target : String} {withContext : Bool} (he : e.Readable)
    (hn : target ∉ Expr.constantNames) :
    Opens env elses (.importTemplate e target withContext line) := by
  refine opens_builtin parseImport rfl (by decide) (fun _ => rfl) fun n rest => ?_
  rw [List.append_assoc]
  refine Reads.take nofun fun _ _ => ?_
  refine (reads_operand he (k := .name "as") (Token.Kind.stops rfl 0)).bind fun x hx => ?_
  refine Reads.demand nofun rfl fun _ _ => ?_
  refine (reads_targetName hn).bind fun t ht => ?_
  obtain ⟨line', rfl⟩ := ht
  refine (reads_context withContext).bind fun c hc => Reads.pure ?_
  subst hc
  exact congrArg (Stmt.importTemplate · target withContext 0) hx

theorem opens_importNames {names : List ImportName} {withContext : Bool} (he : e.Readable)
    (hn : ∀ x ∈ names, Importable x) :
    Opens env elses (.importNames e names withContext line) := by
  refine opens_builtin parseFrom rfl (by decide) (fun _ => rfl) fun n rest => ?_
  rw [List.append_assoc, List.cons_append, List.append_assoc]
  refine Reads.take nofun fun _ _ => ?_
  refine (reads_operand he (Token.Kind.stops rfl 0)).bind fun x hx => ?_
  refine Reads.demand nofun rfl fun _ _ => ?_
  refine (reads_importNames hn withContext).bind fun r hr => ?_
  subst hr
  exact Reads.pure (congrArg (Stmt.importNames · names withContext 0) hx)

/-! ### Assignments -/

/-- Where the value of an assignment can be a tuple without parentheses. -/
theorem reads_value (he : e.Readable) :
    Reads n (parseAnyTuple (below env n)) (e.enclosed ++ .mark .blockEnd :: rest)
      (.mark .blockEnd :: rest) e.Alike :=
  (serves_below env n).anyTuple (he.found env .full).legible (Token.Kind.stops rfl 0) nofun

theorem opens_assign (he : e.Target .store) (hx : x.Readable) :
    Opens env elses (.assign e x line) := by
  refine opens_builtin (parseSet · "set") rfl (by decide) (fun _ => rfl) fun n rest => ?_
  rw [bindingKinds, List.append_assoc, List.cons_append]
  refine Reads.take (by rintro ⟨⟩) fun _ _ => ?_
  have hcomma : Token.Kind.symbol .assign ≠ .symbol .comma := by rintro ⟨⟩
  refine (reads_target he [] (fun _ _ => rfl) hcomma).bind fun t ht => ?_
  refine Reads.skips (by rintro ⟨⟩) rfl ?_
  refine (reads_value hx).bind fun y hy => Reads.pure ?_
  rw [he.setContext_eq] at ht
  simp [Stmt.Alike, Stmt.withoutLines, ht, hy.eq]

theorem opens_assignBlock (he : e.Target .store) (hb : ∀ s ∈ body, Placeable env elses s)
    (hsb : Stmt.Separated body) : Opens env elses (.assignBlock e body line) := by
  refine opens_builtin (parseSet · "set") rfl (by decide) (fun _ => rfl) fun n rest => ?_
  rw [List.append_assoc]
  refine Reads.take nofun fun _ _ => ?_
  have hcomma : Token.Kind.mark .blockEnd ≠ .symbol .comma := nofun
  refine (reads_target he [] (fun _ _ => rfl) hcomma).bind fun t ht => ?_
  refine Reads.stays rfl ?_
  refine (reads_closed _ rfl (by decide) hb hsb).bind fun ss hss => Reads.pure ?_
  rw [he.setContext_eq] at ht
  simp [Stmt.Alike, Stmt.withoutLines, ht, hss.eq]

theorem opens_expr (he : e.Readable) (hdo : env.extension? "do" = some .doExpr) :
    Opens env elses (.expr e line) := by
  refine ⟨"do", e.enclosed, rfl, by decide, fun n rest => Reads.see fun _ _ => ?_⟩
  have hparser : tag? env (below env n) "do" = some (parseDo (below env n)) := by
    have hnone : builtin? (below env n) "do" = none := rfl
    rw [tag?, hnone, hdo]
    rfl
  simp only [Token.name?, hparser]
  refine Reads.inTag (Reads.take (k := .name "do") (by rintro ⟨⟩) fun _ _ => ?_) "do"
  refine (reads_value he).bind fun x hx => Reads.pure ⟨_, rfl, ?_⟩
  exact congrArg (Stmt.expr · 0) hx

/-! ### Conditions and loops -/

/-- The alternative of a condition, from the name of its tag on. -/
theorem reads_alternatives_if (ho : ∀ s ∈ otherwise, Placeable env elses s)
    (hso : Stmt.Separated otherwise) (rest : List Token.Kind) :
    Reads n (parseAlternatives (below env n) "if") (.name "endif" :: rest) rest (fun ss => ss = [])
      ∧ Reads n (parseAlternatives (below env n) "if")
        (.name "else" :: (inside (Stmt.listWritten elses otherwise) "endif" ++ rest)) rest
        (Stmt.AllAlike otherwise) :=
  ⟨Reads.take nofun fun _ _ => Reads.pure rfl,
    Reads.take nofun fun _ _ => reads_closed rest rfl (by decide) ho hso⟩

theorem opens_ifThen (he : e.Readable) (hb : ∀ s ∈ body, Placeable env elses s)
    (hsb : Stmt.Separated body) (ho : ∀ s ∈ otherwise, Placeable env elses s)
    (hso : Stmt.Separated otherwise) : Opens env elses (.ifThen e body otherwise line) := by
  refine opens_builtin parseIf rfl (by decide) (fun _ => rfl) fun n rest => ?_
  obtain ⟨a, ha⟩ := alternatives_append (elses || !otherwise.isEmpty)
    (Stmt.listWritten elses body) (Stmt.listWritten elses otherwise) "endif" (.mark .blockEnd :: rest)
  rw [List.append_assoc, ha]
  refine Reads.demand nofun rfl fun _ _ => ?_
  have htest : Reads n (parseTuple (below env n) (.expression false) [] false)
      (e.enclosed ++ .mark .blockEnd :: a) (.mark .blockEnd :: a) e.Alike :=
    (serves_below env n).tuple (he.found env .full).legible false (fun _ _ => rfl)
      (Token.Kind.stops rfl 1) nofun
  refine htest.bind fun x hx => ?_
  rw [← ha]
  obtain ⟨hnone, hsome⟩ := reads_alternatives_if (n := n) ho hso (.mark .blockEnd :: rest)
  refine (reads_alternatives (by decide) (by decide) (by decide) hb hsb hnone hsome).imp
    fun t ht => ?_
  obtain ⟨b, o, hbody, hotherwise, rfl⟩ := ht
  simp [Stmt.Alike, Stmt.withoutLines, hx.eq, hbody.eq, hotherwise.eq]

/-- The condition of a loop, if it has one. -/
theorem reads_loopTest {test : Option Expr} (ht : ∀ e ∈ test, e.Readable) (hk : k.Stops 0) :
    Reads n (parseLoopTest? (below env n)) (conditionKinds test ++ k :: rest) (k :: rest)
      (fun x => x.map Expr.withoutLines = test.map Expr.withoutLines) := by
  cases test with
  | none =>
      have hif : k.fits (.name "if") = false := fits_name_eq_false hk rfl
      exact Reads.stays hif (Reads.pure rfl)
  | some e =>
      refine Reads.skips nofun rfl ?_
      exact (reads_operand (ht e rfl) hk).bind fun x hx => Reads.pure (congrArg some hx)

/-- **What a loop goes through**, without modifiers. -/
theorem reads_iterable (he : e.Readable)
    (hk : k = .name "if" ∨ k = .name "recursive" ∨ k = .mark .blockEnd) :
    Reads n (parseIterable (below env n)) (e.enclosed ++ k :: rest) (k :: rest) e.Alike := by
  have hstops : k.Stops 1 ∧ k ≠ .symbol .comma ∧ k.fits (.name "reversed") = false ∧
      k.fits (.name "limit") = false ∧ k.fits (.name "offset") = false := by
    rcases hk with rfl | rfl | rfl
    · have hif : Token.Kind.Stops (.name "if") 1 := by
        intro m hm
        obtain rfl : 0 = m := Option.some.inj hm
        exact Nat.zero_lt_one
      exact ⟨hif, nofun, rfl, rfl, rfl⟩
    · exact ⟨Token.Kind.stops rfl 1, nofun, rfl, rfl, rfl⟩
    · exact ⟨Token.Kind.stops rfl 1, nofun, rfl, rfl, rfl⟩
  obtain ⟨hstops, hcomma, hreversed, hlimit, hoffset⟩ := hstops
  have htuple : Reads n (parseTuple (below env n) (.expression false) iterableEnds false)
      (e.enclosed ++ k :: rest) (k :: rest) e.Alike :=
    (serves_below env n).tuple (he.found env .full).legible false (fun _ _ => rfl) hstops hcomma
  refine htuple.bind fun x hx => ?_
  have hmodifiers : Reads n (parseModifiers (below env n)) (k :: rest) (k :: rest)
      (fun m => m = {}) := by
    refine Reads.stop (Reads.stays hreversed ?_)
    refine Reads.stays hlimit <| Reads.stays hoffset ?_
    exact Reads.pure ⟨_, rfl, rfl⟩
  refine hmodifiers.bind fun m hm => ?_
  subst hm
  exact Reads.pure hx

/-- The alternative of a loop, from the name of its tag on. -/
theorem reads_loopElse (ho : ∀ s ∈ otherwise, Placeable env elses s)
    (hso : Stmt.Separated otherwise) (rest : List Token.Kind) :
    Reads n (parseLoopElse (below env n)) (.name "endfor" :: rest) rest (fun ss => ss = []) ∧
      Reads n (parseLoopElse (below env n))
        (.name "else" :: (inside (Stmt.listWritten elses otherwise) "endfor" ++ rest)) rest
        (Stmt.AllAlike otherwise) := by
  have hclosed : Reads n (parseStatements (below env n) [endTag "for"] true) _ rest _ :=
    reads_closed rest rfl (by decide) ho hso
  exact ⟨Reads.take nofun fun _ _ => Reads.pure rfl, Reads.take nofun fun _ _ => hclosed⟩

theorem opens_forLoop {target iter : Expr} {test : Option Expr} {recursive : Bool}
    (ht : target.Target .store) (hi : iter.Readable) (hc : ∀ e ∈ test, e.Readable)
    (hb : ∀ s ∈ body, Placeable env elses s) (hsb : Stmt.Separated body)
    (ho : ∀ s ∈ otherwise, Placeable env elses s) (hso : Stmt.Separated otherwise) :
    Opens env elses (.forLoop target iter body otherwise test recursive line) := by
  refine opens_builtin parseFor rfl (by decide) (fun _ => rfl) fun n rest => ?_
  simp only [List.append_assoc, List.cons_append]
  refine Reads.demand nofun rfl fun _ _ => ?_
  have hends (line : Nat) (span : Span) :
      isTupleEnd [.name "in"] ⟨.symbol .lParen, line, span⟩ = false := rfl
  refine (reads_target ht _ hends (k := .name "in") nofun).bind fun t htarget => ?_
  refine Reads.demand nofun rfl fun _ _ => ?_
  -- Behind the target stand the parts that can be left out.
  obtain ⟨a, ha⟩ := alternatives_append (elses || !otherwise.isEmpty)
    (Stmt.listWritten elses body) (Stmt.listWritten elses otherwise) "endfor"
    (.mark .blockEnd :: rest)
  have hflag : ∃ k b, flagKinds recursive ["recursive"] ++ (.mark .blockEnd :: a) = k :: b ∧
      (k = .name "recursive" ∨ k = .mark .blockEnd) := by
    cases recursive
    · exact ⟨_, _, rfl, .inr rfl⟩
    · exact ⟨_, _, rfl, .inl rfl⟩
  obtain ⟨k, b, hkb, hk⟩ := hflag
  have htest : ∃ k' b', conditionKinds test ++ k :: b = k' :: b' ∧
      (k' = .name "if" ∨ k' = .name "recursive" ∨ k' = .mark .blockEnd) := by
    cases test
    · exact ⟨_, _, rfl, .inr hk⟩
    · exact ⟨_, _, rfl, .inl rfl⟩
  obtain ⟨k', b', hkb', hk'⟩ := htest
  have hstops : k.Stops 0 := by
    rcases hk with rfl | rfl <;> exact Token.Kind.stops rfl 0
  rw [ha, hkb, hkb']
  refine (reads_iterable hi hk').bind fun x hx => ?_
  rw [← hkb']
  refine (reads_loopTest hc hstops).bind fun c hcond => ?_
  rw [← hkb]
  refine (reads_flag recursive "recursive" rfl).bind fun r hr => ?_
  subst hr
  rw [← ha]
  obtain ⟨hnone, hsome⟩ := reads_loopElse (n := n) ho hso (.mark .blockEnd :: rest)
  refine (reads_alternatives (by decide) (by decide) (by decide) hb hsb hnone hsome).imp
    fun u hu => ?_
  obtain ⟨b, o, hbody, hotherwise, rfl⟩ := hu
  rw [ht.setContext_eq] at htarget
  simp [Stmt.Alike, Stmt.withoutLines, htarget, hx.eq, hcond, hbody.eq, hotherwise.eq]

/-! ### Scopes and blocks -/

theorem opens_withBlock {targets values : List Expr} (ht : ∀ e ∈ targets, e.Target .param)
    (hv : ∀ e ∈ values, e.Readable) (hl : targets.length = values.length)
    (hb : ∀ s ∈ body, Placeable env elses s) (hsb : Stmt.Separated body) :
    Opens env elses (.withBlock targets values body line) := by
  refine opens_builtin parseWith rfl (by decide) (fun _ => rfl) fun n rest => ?_
  rw [List.append_assoc, inside_append]
  have hfst : (targets.zip values).map Prod.fst = targets := List.map_fst_zip (by omega)
  have hsnd : (targets.zip values).map Prod.snd = values := List.map_snd_zip (by omega)
  have htargets (x) (hx : x ∈ targets.zip values) : x.1.Target .param :=
    ht _ (hfst ▸ List.mem_map_of_mem hx)
  have hvalues (x) (hx : x ∈ targets.zip values) : x.2.Readable :=
    hv _ (hsnd ▸ List.mem_map_of_mem hx)
  refine Reads.take nofun fun _ _ => ?_
  refine (reads_bindings htargets hvalues).bind fun ys hys => ?_
  rw [← inside_append]
  refine (reads_closed _ rfl (by decide) hb hsb).bind fun ss hss => Reads.pure ?_
  have hys1 : (ys.map Prod.fst).map Expr.withoutLines = targets.map Expr.withoutLines := by
    have h := congrArg (List.map Prod.fst) hys
    simp only [List.map_map, Function.comp_def] at h
    rw [List.map_map, Function.comp_def, h]
    exact (List.map_map ..).symm.trans (congrArg _ hfst)
  have hys2 : (ys.map Prod.snd).map Expr.withoutLines = values.map Expr.withoutLines := by
    have h := congrArg (List.map Prod.snd) hys
    simp only [List.map_map, Function.comp_def] at h
    rw [List.map_map, Function.comp_def, h]
    exact (List.map_map ..).symm.trans (congrArg _ hsnd)
  simp only [Stmt.Alike, Stmt.withoutLines, hys1, hys2, Stmt.listWithoutLines_eq_map, hss.eq]

theorem opens_autoescape {line' line'' : Nat} (he : e.Readable)
    (hb : ∀ s ∈ body, Placeable env elses s) (hsb : Stmt.Separated body) :
    Opens env elses (.scope [.optionBlock [⟨"autoescape", e, line⟩] body line'] line'') := by
  refine opens_builtin parseAutoescape rfl (by decide) (fun _ => rfl) fun n rest => ?_
  rw [List.append_assoc]
  refine Reads.take nofun fun _ _ => ?_
  refine (reads_operand he (k := .mark .blockEnd) (Token.Kind.stops rfl 0)).bind fun x hx => ?_
  refine (reads_closed _ rfl (by decide) hb hsb).bind fun ss hss => Reads.pure ?_
  simp [Stmt.Alike, Stmt.withoutLines, hx.eq, hss.eq]

theorem opens_block {name : String} {isScoped : Bool} (hb : ∀ s ∈ body, Placeable env elses s)
    (hsb : Stmt.Separated body) : Opens env elses (.block name isScoped body line) := by
  refine opens_builtin parseBlock rfl (by decide) (fun _ => rfl) fun n rest => ?_
  rw [List.cons_append, List.append_assoc, inside_append]
  refine Reads.take nofun fun _ _ => ?_
  refine Reads.demand nofun rfl fun _ _ => ?_
  refine (reads_flag isScoped "scoped" rfl).bind fun flag hflag => ?_
  have hhyphen (a : List Token.Kind) : Reads n refuseHyphen (.mark .blockEnd :: a)
      (.mark .blockEnd :: a) (fun _ => True) := Reads.symbol .sub (Reads.pure trivial)
  refine (hhyphen _).bind fun _ _ => ?_
  rw [← inside_append]
  refine (reads_closed _ rfl (by decide) hb hsb).bind fun ss hss => ?_
  refine Reads.stays rfl (Reads.pure ?_)
  subst hflag
  simp [Stmt.Alike, Stmt.withoutLines, Token.nameText, Token.name?, hss.eq]

/-! ### Definitions, calls and filters -/

theorem opens_macroBlock {name : String} {params defaults : List Expr}
    (hn : name ∉ Expr.constantNames) (hp : ∀ e ∈ params, e.Parameter)
    (hd : ∀ e ∈ defaults, e.Readable) (hl : defaults.length ≤ params.length)
    (hb : ∀ s ∈ body, Placeable env elses s) (hsb : Stmt.Separated body) :
    Opens env elses (.macroBlock name params defaults body line) := by
  refine opens_builtin parseMacro rfl (by decide) (fun _ => rfl) fun n rest => ?_
  rw [List.cons_append, List.append_assoc]
  refine Reads.take nofun fun _ _ => ?_
  refine (reads_targetName hn).bind fun t ht => ?_
  obtain ⟨line', rfl⟩ := ht
  refine (reads_signature hp hd hl).bind fun sig hsig => ?_
  refine (reads_closed _ rfl (by decide) hb hsb).bind fun ss hss => Reads.pure ?_
  simp [Stmt.Alike, Stmt.withoutLines, Expr.nameText, hsig.1, hsig.2, hss.eq]

/-- Whether an expression is a call does not depend on lines. -/
theorem isCall_withoutLines (e : Expr) : isCall e.withoutLines = isCall e := by
  cases e <;> rfl

theorem opens_callBlock {node : Expr} {args : Arguments Expr} {line' : Nat}
    {params defaults : List Expr} (hc : (Expr.call node args line').Readable)
    (hp : ∀ e ∈ params, e.Parameter) (hd : ∀ e ∈ defaults, e.Readable)
    (hl : defaults.length ≤ params.length) (hb : ∀ s ∈ body, Placeable env elses s)
    (hsb : Stmt.Separated body) :
    Opens env elses (.callBlock (.call node args line') params defaults body line) := by
  refine opens_builtin parseCallBlock rfl (by decide) (fun _ => rfl) fun n rest => ?_
  rw [List.append_assoc, List.append_assoc]
  refine Reads.take nofun fun _ _ => ?_
  have hsignature (a : List Token.Kind) : Reads n (parseOptionalSignature (below env n))
      (signatureKinds params defaults ++ a) a (SignatureSoFar params defaults) :=
    Reads.symbol .lParen (reads_signature hp hd hl)
  refine (hsignature _).bind fun sig hsig => ?_
  refine (reads_operand hc (k := .mark .blockEnd) (Token.Kind.stops rfl 0)).bind fun x hx => ?_
  have hcall : isCall x = true := by
    rw [← isCall_withoutLines, hx.eq]
    rfl
  rw [if_pos hcall]
  refine (reads_closed _ rfl (by decide) hb hsb).bind fun ss hss => Reads.pure ?_
  simp only [Stmt.Alike, Stmt.withoutLines, hx.eq, hsig.1, hsig.2, Stmt.listWithoutLines_eq_map,
    hss.eq]

/-- The name of a filter and its arguments, which are written even if there are none. -/
theorem reads_blockFilter (name : String) {args : Arguments Expr} (node : Option Expr)
    (rest : List Token.Kind) (ha : ∀ e ∈ args.values, e.Readable)
    (hk : k = .symbol .pipe ∨ k = .mark .blockEnd) :
    Reads n (parseFilterName (below env n) node)
      (nameKinds name ++ Expr.writtenArguments .full args ++ k :: rest) (k :: rest)
      (fun x => ∃ args' line, x = .filter node name args' line ∧
        Expr.argumentsWithoutLines args' = Expr.argumentsWithoutLines args) := by
  have hstops : k.Stops 10 ∧ ¬ k.Sticks := by
    rcases hk with rfl | rfl
    · refine ⟨fun m hm => ?_, nofun⟩
      obtain rfl : 9 = m := Option.some.inj hm
      decide
    · exact ⟨Token.Kind.stops rfl 10, nofun⟩
  have hlegible (e) (he : e ∈ args.values) : Legible env e (e.written .full) :=
    ((ha e he).found env .full).legible
  have hfilter := reads_filterName name node rest hlegible hstops.1 hstops.2 (n := n)
  have hlists : (args.isEmpty && !Style.full.lists) = false := Bool.and_false _
  rw [hlists, if_neg Bool.false_ne_true] at hfilter
  rw [List.append_assoc]
  exact hfilter

/-- **Filters of a block** lead to the loop over those behind them. -/
theorem leads_filterChain (he : e.FilterChain) (hk : k = .symbol .pipe ∨ k = .mark .blockEnd)
    (rest : List Token.Kind) :
    Leads n (parseFilters (below env n) none true)
      (fun x => parseFilters (below env n) (some x) false) (e.writtenFilters ++ k :: rest)
      (k :: rest) e.Alike := by
  induction he generalizing k rest with
  | @first name args line ha =>
      have hround : Leads n (parseFilters (below env n) none true)
          (fun y => parseFilters (below env n) y.1 y.2)
          (nameKinds name ++ Expr.writtenArguments .full args ++ k :: rest) (k :: rest)
          (fun y => ∃ x, y = (some x, false) ∧ (Expr.filter none name args line).Alike x) := by
        refine Leads.round ?_ ?_
        · refine (reads_blockFilter name none rest ha hk).bind fun x hx => ?_
          obtain ⟨args', line', rfl, hargs⟩ := hx
          exact Reads.pure ⟨_, rfl, _, rfl, congrArg (Expr.filter none name · 0) hargs⟩
        · obtain ⟨part, more, hname, _⟩ := nameKinds_eq name
          simp [hname]
          omega
      intro s hs hw
      obtain ⟨_, t, hy, ht, hsuf, x, rfl, hpost⟩ := hround s hs hw
      exact ⟨x, t, hy, ht, hsuf, hpost⟩
  | @next node name args line hn ha ih =>
      rw [Expr.writtenFilters, List.append_assoc, List.cons_append]
      refine (ih (.inl rfl) _).trans fun x hx => ?_
      have hlt : rest.length <
          (nameKinds name ++ Expr.writtenArguments .full args ++ k :: rest).length := by
        simp
        omega
      refine leads_pipe ((reads_blockFilter name (some x) rest ha hk).imp fun y hy => ?_) hlt
      obtain ⟨args', line', rfl, hargs⟩ := hy
      simp only [Expr.Alike, Expr.withoutLines, hargs, Expr.optionWithoutLines_eq_map,
        Option.map_some, hx.eq]

theorem opens_filterBlock (he : e.FilterChain) (hb : ∀ s ∈ body, Placeable env elses s)
    (hsb : Stmt.Separated body) : Opens env elses (.filterBlock e body line) := by
  refine opens_builtin parseFilterBlock rfl (by decide) (fun _ => rfl) fun n rest => ?_
  rw [List.append_assoc, inside_append]
  refine Reads.take nofun fun _ _ => ?_
  have hfilters (a : List Token.Kind) : Reads n (parseFilters (below env n) none true)
      (e.writtenFilters ++ .mark .blockEnd :: a) (.mark .blockEnd :: a) e.Alike := by
    refine (leads_filterChain he (.inr rfl) a).reads fun x hx => ?_
    exact (reads_filters_end (k := .mark .blockEnd) nofun x).imp fun y hy => hy ▸ hx
  refine (hfilters _).bind fun x hx => ?_
  rw [← inside_append]
  refine (reads_closed _ rfl (by decide) hb hsb).bind fun ss hss => Reads.pure ?_
  simp [Stmt.Alike, Stmt.withoutLines, hx.eq, hss.eq]

end LiquidTemplate
