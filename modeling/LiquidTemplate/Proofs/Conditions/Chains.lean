import LiquidTemplate.Proofs.Conditions.Parts
import LiquidTemplate.Proofs.Respelling.Templates
import Mathlib.Logic.Relation

/-!
# Chains of conditions

A chain of conditions is one tag after the other behind its branches: `elif` with a further branch,
`else`, and the end tag. The same branches nested into each other have every further branch as a
condition of its own behind `else`. A chain says nothing that nested conditions do not say, and
`unless` nothing that `if` does not say of the negated test. How the name of an `elif` tag is spelled is
not in the tree at all.

* `Chain`: the branches of a chain, and a body for the case that no test holds.
* `Chain.written`, `Chain.nested`: its tokens in both forms.
* `Chain.tree`: its statement.
* `passes_elifs`, `passes_nestedIfs`: the branches behind the first one, by induction on them.
* `Chain.passes_written`, `Chain.passes_nested`: both forms have that statement.
* `Environment.ReadsAs`: the statement of a tag, wherever the tag stands.
* `condition_sugar`: chains, nested conditions, negated chains and both spellings.
-/

namespace LiquidTemplate

open LiquidTemplate.Parser LiquidTemplate.Grammar

variable {env : Environment} {a rest : List Token.Kind} {m m' : Nat} {tags : List String} {tag : String}
  {otherwise : Option (Body env)} {line : Nat} {negate : Bool}

/-! ### Chains -/

/-- **A chain of conditions**: its first branch, further ones, and the body behind `else`. -/
structure Chain (env : Environment) where
  first : Branch env
  more : List (Branch env)
  otherwise : Option (Body env)

/-- The tokens of a branch, from its test on to the tag behind its body. -/
def Branch.written (b : Branch env) : List Token.Kind :=
  b.test ++ .mark .blockEnd :: (b.kinds ++ [.mark .blockBegin])

/-- What stands behind the last branch: the body behind `else`, and the end tag. -/
def closing (tag : String) : Option (Body env) → List Token.Kind
  | none => [.name ("end" ++ tag)]
  | some body =>
    .name "else" :: .mark .blockEnd :: (body.kinds ++ [.mark .blockBegin, .name ("end" ++ tag)])

/-- **Further branches behind `elif`.** -/
def elifs (tag : String) (otherwise : Option (Body env)) : List (Branch env) → List Token.Kind
  | [] => closing tag otherwise
  | b :: more => .name "elif" :: (b.written ++ elifs tag otherwise more)

/-- **Further branches as conditions of their own**, each behind the `else` of the one before it. -/
def nestedIfs (otherwise : Option (Body env)) : List (Branch env) → List Token.Kind
  | [] => closing "if" otherwise
  | b :: more =>
    .name "else" :: .mark .blockEnd :: .mark .blockBegin :: .name "if" :: (b.written ++
      (nestedIfs otherwise more ++ [.mark .blockEnd, .mark .blockBegin, .name "endif"]))

/-- The statements of the branches behind the first one, if `m` names have been made up before. -/
def alternativesAfter (m : Nat) (otherwise : Option (Body env)) : List (Branch env) → List Stmt
  | [] => (otherwise.map fun body => body.after m).getD []
  | b :: more =>
    [.ifThen b.testTree (b.after m) (alternativesAfter (m + b.names) otherwise more) 0]

/-- How many names are made up in these branches. -/
def alternativeNames (otherwise : Option (Body env)) : List (Branch env) → Nat
  | [] => (otherwise.map Body.names).getD 0
  | b :: more => b.names + alternativeNames otherwise more

namespace Chain

/-- **The tokens of a chain**, from the name of its tag to that of the end tag. -/
def written (c : Chain env) (tag : String) : List Token.Kind :=
  .name tag :: (c.first.written ++ elifs tag c.otherwise c.more)

/-- **The tokens of nested conditions** with the branches of a chain. -/
def nested (c : Chain env) : List Token.Kind :=
  .name "if" :: (c.first.written ++ nestedIfs c.otherwise c.more)

/-- **The statement of a chain**, if `m` names have been made up before. Only the first test can be
negated. -/
def tree (c : Chain env) (negated : Bool) (m : Nat) : Stmt :=
  .ifThen (if negated then .not c.first.testTree 0 else c.first.testTree) (c.first.after m)
    (alternativesAfter (m + c.first.names) c.otherwise c.more) 0

/-- How many names are made up in a chain. -/
def names (c : Chain env) : Nat :=
  c.first.names + alternativeNames c.otherwise c.more

end Chain

/-! ### Branches -/

/-- The tags behind a body of a condition. -/
theorem bodyEnds_subset (htag : tag = "if" ∨ tag = "unless") :
    [.name "elif", .name "else", endTag tag] ⊆ conditionEnds := by
  rcases htag with rfl | rfl <;> decide

/-- **A branch** and what its alternatives are. -/
theorem passes_branch (henv : ∀ y ∈ env.extensions, y.Known) (b : Branch env)
    (htag : tag = "if" ∨ tag = "unless") {word : String} {alternatives : List Stmt}
    (hword : .name word ∈ [.name "elif", .name "else", endTag tag])
    (h : Passes tags (m + b.names) (parseAlternatives env.grammar tag) (.name word :: a) rest m'
      (Stmt.AllAlike alternatives)) :
    Passes tags m (parseBranch env.grammar line tag negate) (b.written ++ .name word :: a) rest m'
      (Stmt.Alike
        (.ifThen (if negate then .not b.testTree 0 else b.testTree) (b.after m) alternatives 0)) := by
  have hwritten : b.written ++ .name word :: a =
      b.test ++ .mark .blockEnd :: (b.kinds ++ .mark .blockBegin :: .name word :: a) := by
    simp [Branch.written]
  rw [hwritten]
  refine b.isTest.passes.bind fun e he => ?_
  refine (b.passes henv (bodyEnds_subset htag) hword false).bind fun body hbody => ?_
  refine h.bind fun otherwise hotherwise => .pure ?_
  cases negate with
  | false => simp [Stmt.Alike, Stmt.withoutLines, he.eq, hbody.eq, hotherwise.eq]
  | true => simp [Stmt.Alike, Stmt.withoutLines, Expr.withoutLines, he.eq, hbody.eq, hotherwise.eq]

/-- **A branch inside of its tag**, referred to through the grammar. -/
theorem passes_reference (henv : ∀ y ∈ env.extensions, y.Known) {post : Stmt → Prop}
    (h : Passes (tag :: tags) m (parseBranch env.grammar line tag false) a rest m' post) :
    Passes (tag :: tags) m (env.grammar.branch line tag) a rest m' post := by
  intro s hs hm htags
  rw [(unbounded_grammar henv).branch line tag s (by rw [htags]; rfl)]
  exact h s hs hm htags

/-- **The tag of a condition**, from its name on. -/
theorem passes_condition (henv : ∀ y ∈ env.extensions, y.Known) {post : Stmt → Prop}
    (htag : tag = "if" ∧ negate = false ∨ tag = "unless" ∧ negate = true)
    (h : ∀ line, Passes (tag :: tags) m (parseBranch env.grammar line tag negate) a rest m' post) :
    Passes tags m env.grammar.statement (.name tag :: a) rest m' fun y =>
      ∃ stmt, y = .single stmt ∧ post stmt := by
  intro s hs hm htags
  rw [(unbounded_grammar henv).statement]
  refine Passes.see (fun line span => ?_) s hs hm htags
  have hparser : ∃ p : Parser Stmt, tag? env env.grammar tag = some (Expansion.single <$> p) ∧
      p = (do parseBranch env.grammar (← expectName tag).line tag negate) := by
    rcases htag with ⟨rfl, rfl⟩ | ⟨rfl, rfl⟩ <;> exact ⟨_, rfl, rfl⟩
  obtain ⟨p, hp, rfl⟩ := hparser
  dsimp only [Token.name?]
  rw [hp]
  refine .inTag (.map ?_)
  refine .demand (by rintro ⟨⟩) (beq_self_eq_true tag) fun line span => ?_
  exact (h line).imp fun stmt hstmt => ⟨stmt, rfl, hstmt⟩

/-! ### The branches behind the first one -/

/-- One statement is one statement up to lines. -/
theorem allAlike_singleton {s t : Stmt} (h : s.Alike t) : Stmt.AllAlike [s] [t] :=
  congrArg (fun x => [x]) h.eq

/-- **The body behind `else`**, or none. -/
theorem passes_closing (henv : ∀ y ∈ env.extensions, y.Known) (htag : tag = "if" ∨ tag = "unless") :
    Passes tags m (parseAlternatives env.grammar tag) (closing tag otherwise ++ rest) rest
      (m + alternativeNames otherwise []) (Stmt.AllAlike (alternativesAfter m otherwise [])) := by
  have hends : [endTag tag] ⊆ conditionEnds :=
    List.forall_mem_singleton.2 (bodyEnds_subset htag (by simp))
  cases otherwise with
  | none =>
    refine .take nofun fun line span => ?_
    have helif : Token.isName ⟨.name ("end" ++ tag), line, span⟩ "elif" = false := by
      rcases htag with rfl | rfl <;> rfl
    have helse : Token.isName ⟨.name ("end" ++ tag), line, span⟩ "else" = false := by
      rcases htag with rfl | rfl <;> rfl
    rw [helif, helse]
    exact .pure rfl
  | some body =>
    have hclosing : closing tag (some body) ++ rest = .name "else" :: .mark .blockEnd ::
        (body.kinds ++ .mark .blockBegin :: .name ("end" ++ tag) :: rest) := by
      simp [closing]
    rw [hclosing]
    exact .take nofun fun _ _ => body.passes henv hends List.mem_cons_self true

/-- Behind a body stands one of its end tags. -/
theorem elifs_eq_cons (tag : String) (otherwise : Option (Body env)) (bs : List (Branch env)) :
    ∃ word a, elifs tag otherwise bs = .name word :: a ∧
      .name word ∈ [.name "elif", .name "else", endTag tag] := by
  cases bs with
  | cons b bs => exact ⟨_, _, rfl, by simp⟩
  | nil =>
    cases otherwise with
    | none => exact ⟨_, _, rfl, by simp [endTag]⟩
    | some body => exact ⟨_, _, rfl, by simp⟩

/-- Behind a body stands one of its end tags. -/
theorem nestedIfs_eq_cons (otherwise : Option (Body env)) (bs : List (Branch env)) :
    ∃ word a, nestedIfs otherwise bs = .name word :: a ∧
      .name word ∈ [.name "elif", .name "else", endTag "if"] := by
  cases bs with
  | nil => exact elifs_eq_cons "if" otherwise []
  | cons b bs => exact ⟨_, _, rfl, by simp⟩

/-- **Branches behind `elif`**, by induction on them: each is the only alternative to the one before. -/
theorem passes_elifs (henv : ∀ y ∈ env.extensions, y.Known) (htag : tag = "if" ∨ tag = "unless")
    (bs : List (Branch env)) :
    Passes (tag :: tags) m (parseAlternatives env.grammar tag) (elifs tag otherwise bs ++ rest) rest
      (m + alternativeNames otherwise bs) (Stmt.AllAlike (alternativesAfter m otherwise bs)) := by
  induction bs generalizing m with
  | nil => exact passes_closing henv htag
  | cons b bs ih =>
    obtain ⟨word, a, heq, hword⟩ := elifs_eq_cons tag otherwise bs
    have hwritten : elifs tag otherwise (b :: bs) ++ rest =
        .name "elif" :: (b.written ++ .name word :: (a ++ rest)) := by
      simp [elifs, heq]
    have hmore : Passes (tag :: tags) (m + b.names) (parseAlternatives env.grammar tag) _ rest _ _ := ih
    rw [heq, Nat.add_assoc] at hmore
    rw [hwritten]
    refine .take nofun fun _ _ => .look fun t => ?_
    refine (passes_reference henv (passes_branch henv b htag hword hmore)).bind fun stmt hstmt => ?_
    exact .pure (allAlike_singleton hstmt)

/-- **A body of one condition** behind the end of a tag. -/
theorem passes_nestedBody {stmt : Stmt} (hlt : rest.length < a.length)
    (h : Passes tags m env.grammar.statement (.name "if" :: a)
      (.mark .blockEnd :: .mark .blockBegin :: .name "endif" :: rest) m' fun y =>
        ∃ s, y = .single s ∧ stmt.Alike s) :
    Passes tags m (parseStatements env.grammar [endTag "if"] true)
      (.mark .blockEnd :: .mark .blockBegin :: .name "if" :: a) rest m' (Stmt.AllAlike [stmt]) := by
  have hclosed : Passes tags m (parseClosedStatement env.grammar) (.name "if" :: a)
      (.mark .blockBegin :: .name "endif" :: rest) m' fun stmts => ∃ s, stmts = [s] ∧ stmt.Alike s := by
    refine h.bind fun y hy => .demand nofun rfl fun _ _ => .pure ?_
    obtain ⟨s, rfl, hs⟩ := hy
    exact ⟨s, rfl, hs⟩
  have hpart : Passes tags m (parseBodyPart env.grammar [endTag "if"] {})
      (.mark .blockBegin :: .name "if" :: a) (.mark .blockBegin :: .name "endif" :: rest) m' fun r =>
        ∃ body : PartialBody, r = .inl body ∧ ∃ s, body = ⟨[s], []⟩ ∧ stmt.Alike s := by
    refine .see fun _ _ => .drop nofun (.see fun _ _ => ?_)
    refine hclosed.bind ?_
    rintro _ ⟨s, rfl, hs⟩
    exact .pure ⟨_, rfl, s, rfl, hs⟩
  have hlast (s : Stmt) (hs : stmt.Alike s) :
      Passes tags m' (parseBodyPart env.grammar [endTag "if"] ⟨[s], []⟩)
        (.mark .blockBegin :: .name "endif" :: rest) (.name "endif" :: rest) m' fun r =>
        ∃ stmts, r = .inr stmts ∧ Stmt.AllAlike [stmt] stmts :=
    .see fun _ _ => .drop nofun (.see fun _ _ => .pure ⟨[s], rfl, allAlike_singleton hs⟩)
  have hbody : Passes tags m (parseBody env.grammar (some [endTag "if"]))
      (.mark .blockBegin :: .name "if" :: a) (.name "endif" :: rest) m' (Stmt.AllAlike [stmt]) := by
    refine .awaiting (.round (by simpa using hlt) hpart ?_) _
    rintro _ ⟨s, rfl, hs⟩
    exact .stop (hlast s hs)
  refine .stays rfl (.demand nofun rfl fun _ _ => ?_)
  exact hbody.bind fun stmts hstmts => .see fun _ _ => .drop nofun (.pure hstmts)

/-- **Branches that are conditions of their own**, by induction on them. Each condition is the only
statement of the body behind the `else` before it. -/
theorem passes_nestedIfs (henv : ∀ y ∈ env.extensions, y.Known) (bs : List (Branch env)) :
    Passes tags m (parseAlternatives env.grammar "if") (nestedIfs otherwise bs ++ rest) rest
      (m + alternativeNames otherwise bs) (Stmt.AllAlike (alternativesAfter m otherwise bs)) := by
  induction bs generalizing m rest tags with
  | nil => exact passes_closing henv (.inl rfl)
  | cons b bs ih =>
    obtain ⟨word, a, heq, hword⟩ := nestedIfs_eq_cons otherwise bs
    let behind : List Token.Kind := .mark .blockEnd :: .mark .blockBegin :: .name "endif" :: rest
    have hwritten : nestedIfs otherwise (b :: bs) ++ rest = .name "else" :: .mark .blockEnd ::
        .mark .blockBegin :: .name "if" :: (b.written ++ .name word :: (a ++ behind)) := by
      simp [nestedIfs, heq, behind]
    have hmore :
        Passes ("if" :: tags) (m + b.names) (parseAlternatives env.grammar "if") _ behind _ _ := ih
    rw [heq, Nat.add_assoc] at hmore
    rw [hwritten]
    refine .take nofun fun _ _ => passes_nestedBody ?_ <|
      passes_condition henv (.inl ⟨rfl, rfl⟩) fun line =>
        passes_branch henv b (.inl rfl) hword hmore
    simp [Branch.written, behind]
    omega

/-! ### Chains -/

namespace Chain

variable (henv : ∀ y ∈ env.extensions, y.Known) (c : Chain env)
include henv

/-- **The tag of a chain** has its statement. -/
theorem passes_written (htag : tag = "if" ∧ negate = false ∨ tag = "unless" ∧ negate = true) :
    Passes tags m env.grammar.statement (c.written tag ++ rest) rest (m + c.names) fun y =>
      ∃ stmt, y = .single stmt ∧ (c.tree negate m).Alike stmt := by
  have hor : tag = "if" ∨ tag = "unless" := htag.imp And.left And.left
  obtain ⟨word, a, heq, hword⟩ := elifs_eq_cons tag c.otherwise c.more
  have hmore : Passes (tag :: tags) (m + c.first.names) (parseAlternatives env.grammar tag)
      (elifs tag c.otherwise c.more ++ rest) rest _ _ := passes_elifs henv hor c.more
  rw [heq, Nat.add_assoc] at hmore
  have hwritten :
      c.written tag ++ rest = .name tag :: (c.first.written ++ .name word :: (a ++ rest)) := by
    simp [written, heq]
  rw [hwritten]
  exact passes_condition henv htag fun line => passes_branch henv c.first hor hword hmore

/-- **Nested conditions** have the same statement. -/
theorem passes_nested :
    Passes tags m env.grammar.statement (c.nested ++ rest) rest (m + c.names) fun y =>
    ∃ stmt, y = .single stmt ∧ (c.tree false m).Alike stmt := by
  obtain ⟨word, a, heq, hword⟩ := nestedIfs_eq_cons c.otherwise c.more
  have hmore : Passes ("if" :: tags) (m + c.first.names) (parseAlternatives env.grammar "if")
      (nestedIfs c.otherwise c.more ++ rest) rest _ _ := passes_nestedIfs henv c.more
  rw [heq, Nat.add_assoc] at hmore
  have hwritten : c.nested ++ rest = .name "if" :: (c.first.written ++ .name word :: (a ++ rest)) := by
    simp [nested, heq]
  rw [hwritten]
  exact passes_condition henv (.inl ⟨rfl, rfl⟩) fun line =>
    passes_branch henv c.first (.inl rfl) hword hmore

end Chain

/-! ### `elif` and `unless` are sugar -/

/-- **A tag that is read as a statement**, up to lines, whichever tags are open around it and whatever
is behind it. If `m` names have been made up before, the statement is `tree m`, with `names` more. -/
def Environment.ReadsAs (env : Environment) (ks : List Token.Kind) (names : Nat)
    (tree : Nat → Stmt) : Prop :=
  ∀ tags m rest, Passes tags m env.grammar.statement (ks ++ rest) rest (m + names) fun y =>
    ∃ stmt, y = .single stmt ∧ (tree m).Alike stmt

/-- The template `{%if a%}{%elif b%}{%endif%}`, with some name in place of `elif`. -/
def twoBranches (name : List Char) : List Char :=
  ['\x7b', '%', 'i', 'f', ' ', 'a', '%', '\x7d', '\x7b', '%'] ++
    (name ++ [' ', 'b', '%', '\x7d', '\x7b', '%', 'e', 'n', 'd', 'i', 'f', '%', '\x7d'])

/-- Its tokens. -/
theorem tokens_twoBranches : Token.ofTemplate {} (String.ofList (twoBranches ['e', 'l', 'i', 'f'])) =
    .ok ([⟨.mark .blockBegin, 1, ⟨0, 2⟩⟩, ⟨.name "if", 1, ⟨2, 4⟩⟩, ⟨.name "a", 1, ⟨5, 6⟩⟩,
        ⟨.mark .blockEnd, 1, ⟨6, 8⟩⟩] ++
      ⟨.mark .blockBegin, 1, ⟨8, 10⟩⟩ :: ⟨.name "elif", 1, ⟨10, 14⟩⟩ :: [⟨.name "b", 1, ⟨15, 16⟩⟩,
        ⟨.mark .blockEnd, 1, ⟨16, 18⟩⟩, ⟨.mark .blockBegin, 1, ⟨18, 20⟩⟩, ⟨.name "endif", 1, ⟨20, 25⟩⟩,
        ⟨.mark .blockEnd, 1, ⟨25, 27⟩⟩, ⟨.mark .endOfTemplate, 1, ⟨27, 27⟩⟩]) := by
  have hstarts : ∀ o, ({} : Delimiters).start o ≠ "" := by
    rintro (_ | _ | _) <;> decide
  have htext : ({} : Delimiters).textOf (String.ofList (twoBranches ['e', 'l', 'i', 'f'])) =
      twoBranches ['e', 'l', 'i', 'f'] := by
    rw [Delimiters.textOf, String.toList_ofList]
    rfl
  let close : Option Closing := some ⟨({} : Delimiters).blockEnd.toList, .blockEnd⟩
  let last : List Char := ['\x7b', '%', 'e', 'n', 'd', 'i', 'f', '%', '\x7d']
  let later : List Char := ['\x7b', '%', 'e', 'l', 'i', 'f', ' ', 'b', '%', '\x7d'] ++ last
  have hif : TagTokens.read close (some (.mark .blockBegin)) []
      ⟨['i', 'f', ' ', 'a', '%', '\x7d'] ++ later, 2, 1⟩ =
        .ok ⟨[⟨.name "if", 1, ⟨2, 4⟩⟩, ⟨.name "a", 1, ⟨5, 6⟩⟩, ⟨.mark .blockEnd, 1, ⟨6, 8⟩⟩],
          ⟨later, 8, 1⟩, false⟩ := by
    rw [TagTokens.read_of_token (by exact List.cons_ne_nil _ _) rfl rfl,
      TagTokens.read_of_token (by exact List.cons_ne_nil _ _) rfl rfl,
      TagTokens.read_of_close (by exact List.cons_ne_nil _ _) rfl]
    rfl
  have helif : TagTokens.read close (some (.mark .blockBegin)) []
      ⟨['e', 'l', 'i', 'f', ' ', 'b', '%', '\x7d'] ++ last, 10, 1⟩ =
        .ok ⟨[⟨.name "elif", 1, ⟨10, 14⟩⟩, ⟨.name "b", 1, ⟨15, 16⟩⟩, ⟨.mark .blockEnd, 1, ⟨16, 18⟩⟩],
          ⟨last, 18, 1⟩, false⟩ := by
    rw [TagTokens.read_of_token (by exact List.cons_ne_nil _ _) rfl rfl,
      TagTokens.read_of_token (by exact List.cons_ne_nil _ _) rfl rfl,
      TagTokens.read_of_close (by exact List.cons_ne_nil _ _) rfl]
    rfl
  have hendif : TagTokens.read close (some (.mark .blockBegin)) []
      ⟨['e', 'n', 'd', 'i', 'f', '%', '\x7d'], 20, 1⟩ =
        .ok ⟨[⟨.name "endif", 1, ⟨20, 25⟩⟩, ⟨.mark .blockEnd, 1, ⟨25, 27⟩⟩], ⟨[], 27, 1⟩, false⟩ := by
    rw [TagTokens.read_of_token (by exact List.cons_ne_nil _ _) rfl rfl,
      TagTokens.read_of_close (by exact List.cons_ne_nil _ _) rfl]
    rfl
  have hthird : Lexes {} false ⟨last, 18, 1⟩ _ := lexes_block rfl (by cbv) hendif (.finish rfl)
  have hsecond : Lexes {} false ⟨later, 8, 1⟩ _ := lexes_block rfl (by cbv) helif hthird
  have hfirst : Lexes {} false ⟨twoBranches ['e', 'l', 'i', 'f'], 0, 1⟩ _ :=
    lexes_block rfl (by cbv) hif hsecond
  rw [Token.ofTemplate, htext]
  exact templateTokens_of_lexes hstarts hfirst

/-- **The sugar of conditions.** A chain behind `if` is read as the nested conditions with its branches
are, and behind `unless` as the same chain with its first test negated. Templates that differ in the
spelling of their `elif` tags have the same tree, where no delimiter goes over either spelling. -/
theorem condition_sugar {env : Environment} (henv : ∀ y ∈ env.extensions, y.Known) :
    (∀ c : Chain env, env.ReadsAs (c.written "if") c.names (c.tree false) ∧
      env.ReadsAs c.nested c.names (c.tree false) ∧
      env.ReadsAs (c.written "unless") c.names (c.tree true)) ∧
    ((∀ w, IsElif w → env.delimiters.Spare w) → ∀ source source',
      Relation.ReflTransGen env.delimiters.Respelled source source' → ∀ name filename,
        (env.parseTemplate source name filename).toOption =
          (env.parseTemplate source' name filename).toOption) := by
  refine ⟨fun c => ⟨fun _ _ _ => ?chain, fun _ _ _ => ?nested, fun _ _ _ => ?negated⟩, ?spellings⟩
  case chain => exact c.passes_written henv (.inl ⟨rfl, rfl⟩)
  case nested => exact c.passes_nested henv
  case negated => exact c.passes_written henv (.inr ⟨rfl, rfl⟩)
  case spellings =>
    intro hspare source source' h name filename
    induction h with
    | refl => rfl
    | tail _ hlast ih =>
        exact ih.trans (Environment.parseTemplate_respelled henv hspare hlast name filename)

/-- A chain of two branches with the names `a` and `b` as tests, and a template with both spellings. -/
theorem condition_sugar_two :
    let env : Environment := { extensions := [.case] }
    let branch (name data : String) : List Token.Kind := [.symbol .lParen, .name name, .symbol .rParen,
      .mark .blockEnd, .data data, .mark .blockBegin]
    let tree (test : Expr) : Stmt := .ifThen test [.output [.templateData "A" 1] 1]
      [.ifThen (.name "b" .load 0) [.output [.templateData "B" 1] 1] [] 0] 0
    let written (tag close : String) : List Token.Kind :=
      [[.name tag], branch "a" "A", [.name "elif"], branch "b" "B", [.name close]].flatten
    let nested : List Token.Kind :=
      [[.name "if"], branch "a" "A",
        [.name "else", .mark .blockEnd, .mark .blockBegin, .name "if"], branch "b" "B",
        [.name "endif", .mark .blockEnd, .mark .blockBegin, .name "endif"]].flatten
    let source (name : List Char) : String := String.ofList (twoBranches name)
    (∀ y ∈ env.extensions, y.Known) ∧
      env.ReadsAs (written "if" "endif") 0 (fun _ => tree (.name "a" .load 0)) ∧
      env.ReadsAs nested 0 (fun _ => tree (.name "a" .load 0)) ∧
      env.ReadsAs (written "unless" "endunless") 0 (fun _ => tree (.not (.name "a" .load 0) 0)) ∧
      (env.parseTemplate (source ['e', 'l', 'i', 'f']) none none).toOption =
        (env.parseTemplate (source ['e', 'l', 's', 'i', 'f']) none none).toOption := by
  intro env branch tree written nested source
  have henv : ∀ y ∈ env.extensions, y.Known := List.forall_mem_singleton.2 .case
  have ha : env.Spells [.name "a"] (.name "a" .load 0) := env.spells_name (by decide) 0
  have hb : env.Spells [.name "b"] (.name "b" .load 0) := env.spells_name (by decide) 0
  let chain : Chain env :=
    { first :=
        { Body.text env "A" (by decide) with
          test := parens [.name "a"], testTree := .name "a" .load 0, isTest := ha.isTest }
      more :=
        [{ Body.text env "B" (by decide) with
          test := parens [.name "b"], testTree := .name "b" .load 0, isTest := hb.isTest }]
      otherwise := none }
  have hspare : ∀ w, IsElif w → env.delimiters.Spare w := by
    rintro _ (rfl | rfl) <;> decide
  obtain ⟨hchains, hspellings⟩ := condition_sugar henv
  obtain ⟨hwritten, hnested, hnegated⟩ := hchains chain
  have hstep :
      env.delimiters.Respelled (source ['e', 'l', 'i', 'f']) (source ['e', 'l', 's', 'i', 'f']) :=
    .tag tokens_twoBranches rfl rfl String.toList_ofList rfl (.inl rfl) (.inr rfl)
  exact ⟨henv, hwritten, hnested, hnegated, hspellings hspare _ _ (.single hstep) none none⟩

end LiquidTemplate
