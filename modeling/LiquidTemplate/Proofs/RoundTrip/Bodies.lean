import LiquidTemplate.Proofs.RoundTrip.Operators
import LiquidTemplate.Proofs.WrittenBody

/-!
# Bodies

The loop over the parts of a body collects outputs until a statement or the end comes. Since no two
outputs of a canonical body are neighbours, each of its statements comes out as one.

* `Serves`: grammars that read what the productions of all bounds read.
* `Opens`: statements that are read from behind their opening delimiter.
* `leads_body`: the loop goes through a body.
* `reads_statements`: the body between a tag and the next one.
-/

namespace LiquidTemplate

open LiquidTemplate.Parser LiquidTemplate.Grammar

variable {env : Environment} {elses : Bool} {n : Nat} {g : Grammar} {e : Expr}
  {a b rest ks : List Token.Kind} {k l : Token.Kind}

/-! ### Grammars -/

/-- **Serving.** What stands between parentheses, and statements, are read by this grammar if they
are read by the productions of all bounds. -/
structure Serves (env : Environment) (n : Nat) (g : Grammar) : Prop where
  group : ∀ {e : Expr} {ks rest : List Token.Kind}, Legible env e ks →
    ReadsBelow n g.group (ks ++ .symbol .rParen :: rest) (.symbol .rParen :: rest) e.Alike
  statement : ∀ {a b : List Token.Kind} {post : Expansion → Prop},
    (∀ j, Reads j (parseStatement env (below env j)) a b post) → ReadsBelow n g.statement a b post

theorem serves_below (env : Environment) (n : Nat) : Serves env n (below env n) := by
  refine ⟨fun h => reads_group h _, fun {a b post} h => ?_⟩
  rw [below_statement]
  exact reads_guarded (p := fun j => parseStatement env (below env j)) fun j _ => h j

theorem serves_grammar (env : Environment) (n : Nat) : Serves env n env.grammar := by
  refine ⟨fun {e ks rest} h j _ s hs _ => ?_, fun {a b post} h j _ s hs _ => ?_⟩
  · have hgroup := reads_group (n := s.weight + 1) h rest s.weight (Nat.lt_succ_self _) s hs
      (Nat.le_refl _)
    rw [below_group, guarded, dif_pos (Nat.lt_succ_self _)] at hgroup
    exact hgroup
  · exact h s.weight s hs (Nat.le_refl _)

/-- A single expression where a tuple can stand. -/
theorem Serves.tuple (hg : Serves env n g) (h : Legible env e ks) (conditional : Bool)
    {ends : List TokenRule} {parentheses : Bool}
    (hends : ∀ line span, isTupleEnd ends ⟨.symbol .lParen, line, span⟩ = false)
    (hk : k.Stops (if conditional then 0 else 1)) (hcomma : k ≠ .symbol .comma) :
    Reads n (parseTuple g (.expression conditional) ends parentheses) (parens ks ++ k :: rest)
      (k :: rest) e.Alike := by
  have hitem : Reads n (parseTupleItem g (.expression conditional)) (parens ks ++ k :: rest)
      (k :: rest) e.Alike := by
    cases conditional with
    | true => exact reads_enclosed (hg.group h) (Nat.zero_le _) hk
    | false => exact reads_enclosed (hg.group h) (by decide) hk
  exact reads_tuple_one hends hcomma hitem

theorem Serves.anyTuple (hg : Serves env n g) (h : Legible env e ks) (hk : k.Stops 0)
    (hcomma : k ≠ .symbol .comma) :
    Reads n (parseAnyTuple g) (parens ks ++ k :: rest) (k :: rest) e.Alike :=
  hg.tuple h true (fun _ _ => rfl) hk hcomma

/-! ### Parts of a body -/

/-- The tags of statements. -/
def statementTags : List String :=
  ["extends", "for", "if", "break", "continue", "with", "autoescape", "block", "include", "section",
    "import", "from", "macro", "call", "filter", "set", "do"]

/-- **Opened**: a statement that is read from the name of its tag on. -/
def Opens (env : Environment) (elses : Bool) (s : Stmt) : Prop :=
  ∃ tag ks, s.written elses = between (.name tag :: ks) ∧ tag ∈ statementTags ∧ ∀ n rest,
    Reads n (parseStatement env (below env n)) (.name tag :: (ks ++ .mark .blockEnd :: rest))
      (.mark .blockEnd :: rest)
      (fun x => ∃ t, x.toList = [t] ∧ s.Alike t)

/-- Legible as part of an output: text, or a legible expression. -/
def Showable (env : Environment) (e : Expr) : Prop :=
  Legible env e (e.written .full) ∧
      e.shown = .mark .variableBegin :: (e.enclosed ++ [.mark .variableEnd]) ∨
    ∃ data line, e = .templateData data line ∧ data.isEmpty = false

/-- Readable in a body: outputs by their parts, other statements from their tags on. -/
def Placeable (env : Environment) (elses : Bool) : Stmt → Prop
  | .output nodes _ => nodes ≠ [] ∧ ∀ e ∈ nodes, Showable env e
  | s => Opens env elses s

/-- The loop over the parts of a body. -/
abbrev bodyLoop (g : Grammar) (ends : List TokenRule) : PartialBody → Parser (List Stmt) :=
  repeatFrom (parseBodyPart g ends)

/-- **One part of an output** is one round. -/
theorem leads_shown (hg : Serves env n g) (he : Showable env e) (ends : List TokenRule)
    (b : PartialBody) :
    Leads n (bodyLoop g ends b) (bodyLoop g ends) (e.shown ++ rest) rest
      (fun y => ∃ x, x.withoutLines = e.withoutLines ∧ y = b.addOutput x) := by
  rcases he with ⟨he, hshown⟩ | ⟨data, line, rfl, hdata⟩
  · rw [hshown, List.cons_append]
    refine Leads.round (Reads.see fun line span => ?_) (length_behind_lt ..)
    rw [List.append_assoc]
    refine Reads.drop nofun ?_
    have houtput : Reads n (parseOutput g) (e.enclosed ++ .mark .variableEnd :: rest) rest
        e.Alike := by
      have hcomma : Token.Kind.mark .variableEnd ≠ .symbol .comma := nofun
      refine (hg.anyTuple he (Token.Kind.stops rfl 0) hcomma).bind fun x hx => ?_
      exact Reads.demand nofun rfl fun _ _ => Reads.pure hx
    exact houtput.bind fun x hx => Reads.pure ⟨_, rfl, x, hx, rfl⟩
  · refine Leads.round (Reads.see fun line' span => ?_) (by simp [Expr.shown])
    refine Reads.drop nofun ?_
    refine Reads.pure ⟨_, rfl, .templateData data line', rfl, ?_⟩
    rw [PartialBody.addText, hdata]
    rfl

/-- **An output** is as many rounds as it has parts. -/
theorem leads_output (hg : Serves env n g) {nodes : List Expr} (h : ∀ e ∈ nodes, Showable env e)
    (ends : List TokenRule) (b : PartialBody) :
    Leads n (bodyLoop g ends b) (bodyLoop g ends) (nodes.flatMap Expr.shown ++ rest) rest
      (fun y => y.stmts = b.stmts ∧
        y.pending.map Expr.withoutLines = (b.pending ++ nodes).map Expr.withoutLines) := by
  induction nodes generalizing b with
  | nil => exact Leads.refl (by simp)
  | cons e nodes ih =>
      rw [List.flatMap_cons, List.append_assoc]
      refine (leads_shown hg (h e List.mem_cons_self) ends b).trans ?_
      intro _ hy
      obtain ⟨x, hx, rfl⟩ := hy
      refine (ih (fun e he => h e (List.mem_cons_of_mem _ he)) (b.addOutput x)).imp ?_
      intro y hy
      obtain ⟨hstmts, hpending⟩ := hy
      refine ⟨hstmts, ?_⟩
      rw [hpending]
      simp [PartialBody.addOutput, hx]

/-- Rules for names that are no tags of statements. -/
def onlyEnds (ends : List TokenRule) : Bool :=
  ends.all fun
    | .name n => !statementTags.contains n
    | .type _ => false

theorem fitsAny_eq_false {ends : List TokenRule} (hends : onlyEnds ends = true) {tag : String}
    (htag : tag ∈ statementTags) (line : Nat) (span : Span) :
    Token.fitsAny ⟨.name tag, line, span⟩ ends = false := by
  refine Bool.eq_false_iff.2 fun hfits => ?_
  obtain ⟨rule, hrule, hfit⟩ := List.any_eq_true.1 hfits
  have honly := List.all_eq_true.1 hends rule hrule
  cases rule with
  | type t => nomatch honly
  | name n =>
      obtain rfl : tag = n := by simpa [Token.fits, Token.isName, Token.name?] using hfit
      simp [htag] at honly

/-- **A statement** is one round. -/
theorem leads_statement (hg : Serves env n g) {s : Stmt} (h : Opens env elses s)
    {ends : List TokenRule} (hends : onlyEnds ends = true) (b : PartialBody) :
    Leads n (bodyLoop g ends b) (bodyLoop g ends) (s.written elses ++ rest) rest
      (fun y => ∃ t, s.Alike t ∧ y = b.flush.addStatements [t]) := by
  obtain ⟨tag, ks, hks, htag, hread⟩ := h
  rw [hks, between, List.cons_append]
  refine Leads.round (Reads.see fun line span => ?_) (length_behind_lt ..)
  rw [List.append_assoc, List.cons_append]
  refine Reads.drop_lt nofun ?_
  intro j hj
  refine Reads.see fun line' span' => ?_
  rw [fitsAny_eq_false hends htag, if_neg Bool.false_ne_true]
  have hclosed : Reads j (parseClosedStatement g)
      (.name tag :: (ks ++ .mark .blockEnd :: rest)) rest
      (fun ss => ∃ t, ss = [t] ∧ s.Alike t) := by
    refine (hg.statement (fun i => hread i rest) j hj).bind fun x hx => ?_
    exact Reads.demand nofun rfl fun _ _ => Reads.pure hx
  refine hclosed.bind ?_
  intro _ hy
  obtain ⟨t, rfl, ht⟩ := hy
  exact Reads.pure ⟨_, rfl, t, ht, rfl⟩

/-! ### Whole bodies -/

theorem PartialBody.flush_eq {b : PartialBody} (h : b.pending = []) : b.flush = b := by
  rw [flush, h]

/-- **What has been read** of a body: outputs are pending only behind an output. -/
def BodySoFar (done : List Stmt) (b : PartialBody) : Prop :=
  b.flush.stmts.map Stmt.withoutLines = done.map Stmt.withoutLines ∧
    (b.pending ≠ [] → ∃ before s, done = before ++ [s] ∧ s.isOutput = true)

/-- In a separated list no output stands behind another one. -/
theorem Stmt.Separated.tail {s : Stmt} {ss : List Stmt} (h : Separated (s :: ss)) :
    Separated ss := by
  cases ss with
  | nil => trivial
  | cons t ss => exact h.2

theorem Stmt.Separated.not_output {before after : List Stmt} {s t : Stmt}
    (h : Separated (before ++ s :: t :: after)) (hs : s.isOutput = true) : t.isOutput = false := by
  induction before with
  | nil => exact h.1 hs
  | cons r before ih => exact ih h.tail

/-- **The loop goes through a body.** -/
theorem leads_body (hg : Serves env n g) {ends : List TokenRule} (hends : onlyEnds ends = true)
    (stmts done : List Stmt) (h : ∀ s ∈ stmts, Placeable env elses s)
    (hsep : Stmt.Separated (done ++ stmts)) (b : PartialBody) (hb : BodySoFar done b) :
    Leads n (bodyLoop g ends b) (bodyLoop g ends) (Stmt.listWritten elses stmts ++ rest) rest
      (BodySoFar (done ++ stmts)) := by
  induction stmts generalizing done b with
  | nil => exact Leads.refl (by simpa using hb)
  | cons s stmts ih =>
      have hs := h s List.mem_cons_self
      have hnext (y : PartialBody) (hy : BodySoFar (done ++ [s]) y) :
          Leads n (bodyLoop g ends y) (bodyLoop g ends) (Stmt.listWritten elses stmts ++ rest) rest
            (BodySoFar (done ++ s :: stmts)) := by
        have := ih (done ++ [s]) (fun t ht => h t (List.mem_cons_of_mem _ ht)) (by simpa using hsep)
          y hy
        simpa using this
      rw [Stmt.listWritten, List.append_assoc]
      cases hout : s.isOutput with
      | true =>
          obtain ⟨nodes, line, rfl⟩ : ∃ nodes line, s = .output nodes line := by
            cases s <;> first | exact ⟨_, _, rfl⟩ | nomatch hout
          obtain ⟨hne, hnodes⟩ := hs
          -- Nothing is pending, as the statement before this one is no output.
          have hpending : b.pending = [] := by
            refine Classical.byContradiction fun hpending => ?_
            obtain ⟨before, t, rfl, ht⟩ := hb.2 hpending
            have := Stmt.Separated.not_output (by simpa using hsep) ht
            rw [this] at hout
            nomatch hout
          have hflush := PartialBody.flush_eq hpending
          have hdone := hb.1
          rw [hflush] at hdone
          refine (leads_output hg hnodes ends b).trans ?_
          intro y hy
          obtain ⟨stmts', pending⟩ := y
          obtain ⟨rfl, hmap⟩ := hy
          rw [hpending, List.nil_append] at hmap
          refine hnext _ ⟨?_, fun _ => ⟨done, _, rfl, rfl⟩⟩
          cases pending with
          | nil => exact absurd (by simpa using hmap.symm) hne
          | cons x xs =>
              simp only [PartialBody.flush, List.map_append, hdone]
              simp [Stmt.withoutLines, ← hmap]
      | false =>
          have hopens : Opens env elses s := by
            cases s <;> first | exact hs | nomatch hout
          refine (leads_statement hg hopens hends b).trans ?_
          intro _ hy
          obtain ⟨t, ht, rfl⟩ := hy
          have hpending : (b.flush.addStatements [t]).pending = [] := b.pending_flush
          refine hnext _ ⟨?_, fun h => absurd hpending h⟩
          rw [PartialBody.flush_eq hpending]
          have ht := ht.eq
          simp [PartialBody.addStatements, hb.1, ht]

/-- **A body** up to the name of the tag behind it. -/
theorem reads_body (hg : Serves env n g) {ends : List TokenRule} (hends : onlyEnds ends = true)
    {tag : String} (htag : .name tag ∈ ends) {stmts : List Stmt}
    (h : ∀ s ∈ stmts, Placeable env elses s) (hsep : Stmt.Separated stmts) :
    Reads n (parseBody g (some ends))
      (Stmt.listWritten elses stmts ++ .mark .blockBegin :: .name tag :: rest) (.name tag :: rest)
      (Stmt.AllAlike stmts) := by
  refine Reads.awaiting ?_ ends
  refine (leads_body hg hends stmts [] h hsep {} ⟨rfl, fun h => absurd rfl h⟩).reads fun b hb => ?_
  refine Reads.stop (Reads.see fun line span => ?_)
  refine Reads.drop nofun <| Reads.see fun line' span' => ?_
  have hfits : Token.fitsAny ⟨.name tag, line', span'⟩ ends = true :=
    List.any_eq_true.2 ⟨.name tag, htag, by simp [Token.fits, Token.isName, Token.name?]⟩
  rw [hfits, if_pos rfl]
  exact Reads.pure ⟨_, rfl, hb.1⟩

/-- **All of a template.** -/
theorem reads_template (hg : Serves env n g) {stmts : List Stmt}
    (h : ∀ s ∈ stmts, Placeable env elses s) (hsep : Stmt.Separated stmts) :
    Reads n (parseBody g none) (Stmt.listWritten elses stmts ++ [.mark .endOfTemplate])
      [.mark .endOfTemplate] (Stmt.AllAlike stmts) := by
  have hends : onlyEnds [] = true := rfl
  refine (leads_body hg hends stmts [] h hsep {} ⟨rfl, fun h => absurd rfl h⟩).reads fun b hb => ?_
  refine Reads.stop (Reads.see fun line span => ?_)
  exact Reads.pure ⟨_, rfl, hb.1⟩

/-- **The body of a statement**, from the end of its tag up to the name of the one behind it, or
up to the end of that name. -/
theorem reads_statements (hg : Serves env n g) {ends : List TokenRule}
    (hends : onlyEnds ends = true) {tag : String} (htag : .name tag ∈ ends) {stmts : List Stmt}
    (h : ∀ s ∈ stmts, Placeable env elses s) (hsep : Stmt.Separated stmts) (consume : Bool) :
    Reads n (parseStatements g ends consume)
      (inside (Stmt.listWritten elses stmts) tag ++ rest)
      (if consume then rest else .name tag :: rest)
      (Stmt.AllAlike stmts) := by
  have htokens : inside (Stmt.listWritten elses stmts) tag ++ rest = .mark .blockEnd ::
      (Stmt.listWritten elses stmts ++ .mark .blockBegin :: .name tag :: rest) := by
    simp [inside]
  rw [htokens]
  refine Reads.stays rfl ?_
  refine Reads.demand nofun rfl fun _ _ => ?_
  refine (reads_body hg hends htag h hsep).bind fun ss hss => Reads.see fun line span => ?_
  cases consume with
  | true => exact Reads.drop nofun <| Reads.pure hss
  | false => exact Reads.pure hss

end LiquidTemplate
