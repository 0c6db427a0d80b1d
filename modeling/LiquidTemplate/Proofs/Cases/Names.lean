import LiquidTemplate.Proofs.Conduct.Counting
import LiquidTemplate.Proofs.Forms.Places

/-!
# Made-up names

Every case distinction has a name of its own for its subject. Its number is made up when the subject
has been read, before those of the case distinctions in its bodies. No text of a template spells it.

* `Numbered`: made-up names in order.
* `Cased`: statements with the made-up names of their case distinctions.
* `madeUpTargets`: the made-up names that are assigned to.
* `Lowered.cased`: the case distinctions of statements that are made of tokens.
* `NamedIn`, `Lowered.spelled`: the names in a template are spelled by its tokens.
* `Token.Spelled.ne_internalName`: these are not made up.
-/

namespace LiquidTemplate

open LiquidTemplate.Parser LiquidTemplate.Grammar Text

variable {tokens source ts us : List Token} {own : Option String} {e value : Expr} {ps : List Piece}
  {i j m n line : Nat} {name text : String} {body ss rest : List Stmt}
  {s t u : ParserState} {env : Environment} {b : CaseBranch} {branches : List CaseBranch}
  {fallback : List Stmt}

/-! ### Numbers and names -/

theorem internalName_inj (h : internalName i = internalName j) : i = j :=
  Nat.repr_inj.1 ((String.append_right_inj "$fi").1 h)

/-- **Made-up names** whose numbers increase above `m` up to `n`. -/
def Numbered (m n : Nat) (names : List String) : Prop :=
  ∃ numbers : List Nat, names = numbers.map internalName ∧ numbers.Pairwise (· < ·) ∧
    ∀ i ∈ numbers, m < i ∧ i ≤ n

namespace Numbered

variable {names more : List String}

theorem nil : Numbered m n [] :=
  ⟨[], rfl, .nil, nofun⟩

/-- The next name. -/
theorem next : Numbered m (m + 1) [internalName (m + 1)] :=
  ⟨[m + 1], rfl, List.pairwise_singleton _ _,
    List.forall_mem_singleton.2 ⟨Nat.lt_succ_self m, Nat.le_refl _⟩⟩

theorem weaken (h : Numbered i j names) (hm : m ≤ i) (hn : j ≤ n) : Numbered m n names := by
  obtain ⟨numbers, rfl, hsorted, hbounds⟩ := h
  refine ⟨numbers, rfl, hsorted, fun k hk => ?_⟩
  exact ⟨Nat.lt_of_le_of_lt hm (hbounds k hk).1, Nat.le_trans (hbounds k hk).2 hn⟩

theorem append (h : Numbered m i names) (h' : Numbered i n more) (hle : m ≤ i) (hle' : i ≤ n) :
    Numbered m n (names ++ more) := by
  obtain ⟨first, rfl, hsorted, hbounds⟩ := h
  obtain ⟨second, rfl, hsorted', hbounds'⟩ := h'
  refine ⟨first ++ second, (List.map_append ..).symm, ?_, ?_⟩
  · refine List.pairwise_append.2 ⟨hsorted, hsorted', fun j hj k hk => ?_⟩
    exact Nat.lt_of_le_of_lt (hbounds j hj).2 (hbounds' k hk).1
  · refine List.forall_mem_append.2 ⟨fun j hj => ?_, fun j hj => ?_⟩
    · exact ⟨(hbounds j hj).1, Nat.le_trans (hbounds j hj).2 hle'⟩
    · exact ⟨Nat.lt_of_le_of_lt hle (hbounds' j hj).1, (hbounds' j hj).2⟩

theorem nodup (h : Numbered m n names) : names.Nodup := by
  obtain ⟨numbers, rfl, hsorted, -⟩ := h
  have hnumbers : numbers.Nodup := hsorted.imp fun hlt => Nat.ne_of_lt hlt
  exact hnumbers.map fun _ _ => internalName_inj

theorem exists_of_mem (h : Numbered m n names) (hmem : name ∈ names) :
    ∃ number, name = internalName number := by
  obtain ⟨numbers, rfl, -⟩ := h
  obtain ⟨number, -, rfl⟩ := List.mem_map.1 hmem
  exact ⟨number, rfl⟩

end Numbered

/-- **No name begins** as the made-up names do. -/
theorem ne_internalName (h : ∃ c ∈ text.toList.head?, isNameStart c = true) (number : Nat) :
    text ≠ internalName number := by
  rintro rfl
  obtain ⟨c, hc, hstart⟩ := h
  have hdollar : (internalName number).toList.head? = some '$' := by
    rw [internalName, String.toList_append]
    rfl
  rw [hdollar] at hc
  obtain rfl := Option.some.inj hc
  exact absurd hstart (by decide)

/-! ### Statements with case distinctions -/

/-- **Expressions without made-up names.** -/
def Expr.Plain (e : Expr) : Prop :=
  ∀ text line, .internalName text line ∉ e.walk

/-- **The made-up name** that an expression mentions, and no other. -/
def Expr.Mentions (e : Expr) (name : String) : Prop :=
  ∀ text, (∃ line, .internalName text line ∈ e.walk) ↔ text = name

/-- **Statements with the made-up names** of their case distinctions, in order. A case distinction
assigns its subject to its name and compares its values with it. No other expression has made-up
names. -/
inductive Cased : List String → List Stmt → Prop where
  | nil : Cased [] []
  | plain {names more : List String} {stmt : Stmt} {rest : List Stmt}
      (hexprs : ∀ e ∈ stmt.exprs, e.Plain) (hbody : Cased names stmt.body) (hrest : Cased more rest) :
      Cased (names ++ more) (stmt :: rest)
  | case {name : String} {names more : List String} {subject : Expr} {line : Nat}
      {branches : List CaseBranch} {fallback rest : List Stmt} (hsubject : subject.Plain)
      (hbranches : ∀ b ∈ branches, b.values ≠ [] ∧
        ∀ value ∈ b.values, (b.comparison name value).Mentions name)
      (hbodies : Cased names (branches.flatMap CaseBranch.body ++ fallback))
      (hrest : Cased more rest) :
      Cased (name :: names ++ more) (.assign (.internalName name line) subject line ::
        (caseChain name branches fallback ++ rest))

/-- **The made-up name** to which a statement assigns. -/
def Node.madeUpTarget? : Node → Option String
  | .stmt (.assign (.internalName name _) _ _) => some name
  | _ => none

/-- **The made-up names that are assigned to**, in the order of the walk, each as often as that
happens. -/
def madeUpTargets (body : List Stmt) : List String :=
  (walkAll body).filterMap Node.madeUpTarget?

@[simp]
theorem madeUpTargets_nil : madeUpTargets [] = [] :=
  rfl

theorem madeUpTargets_append (body rest : List Stmt) :
    madeUpTargets (body ++ rest) = madeUpTargets body ++ madeUpTargets rest := by
  rw [madeUpTargets, walkAll_append, List.filterMap_append]
  rfl

/-- What a statement assigns to itself, and what its inner statements do. -/
theorem madeUpTargets_cons (stmt : Stmt) (rest : List Stmt) :
    madeUpTargets (stmt :: rest) =
      (Node.stmt stmt).madeUpTarget?.toList ++ madeUpTargets stmt.body ++ madeUpTargets rest := by
  have hexprs : ((stmt.exprs.flatMap Expr.walk).map Node.expr).filterMap Node.madeUpTarget? = [] := by
    rw [List.filterMap_map]
    exact List.filterMap_eq_nil_iff.2 fun _ _ => rfl
  rw [madeUpTargets, walkAll, List.flatMap_cons, Stmt.walk_eq, List.filterMap_append,
    List.filterMap_cons, List.filterMap_append, hexprs, List.nil_append]
  cases (Node.stmt stmt).madeUpTarget? <;> rfl

/-- A chain of conditions assigns what its bodies do. -/
theorem madeUpTargets_caseChain (hne : ∀ b ∈ branches, b.values ≠ []) :
    madeUpTargets (caseChain name branches fallback) =
      madeUpTargets (branches.flatMap CaseBranch.body ++ fallback) := by
  induction branches with
  | nil => rfl
  | cons b branches ih =>
    obtain ⟨hb, hrest⟩ := List.forall_mem_cons.1 hne
    obtain ⟨value, values, hvalues⟩ := List.exists_cons_of_ne_nil hb
    have htest : ∃ test, b.test? name = some test := by
      rw [CaseBranch.test?, hvalues]
      exact ⟨_, rfl⟩
    obtain ⟨test, htest⟩ := htest
    have hchain : caseChain name (b :: branches) fallback =
        [.ifThen test b.body (caseChain name branches fallback) b.line] := by
      rw [caseChain, List.foldr_cons, htest]
      rfl
    have hbodies : madeUpTargets ((b :: branches).flatMap CaseBranch.body ++ fallback) =
        madeUpTargets b.body ++ madeUpTargets (branches.flatMap CaseBranch.body ++ fallback) := by
      rw [List.flatMap_cons, List.append_assoc, madeUpTargets_append]
    rw [hchain, madeUpTargets_cons, hbodies, ← ih hrest, ← madeUpTargets_append]
    exact List.append_nil _

/-- **The names of the case distinctions** are just those that are assigned to. -/
theorem Cased.targets {names : List String} (h : Cased names ss) : madeUpTargets ss = names := by
  induction h with
  | nil => rfl
  | @plain names more stmt rest hexprs _ _ ih ih' =>
    have hnone : (Node.stmt stmt).madeUpTarget? = none := by
      cases stmt with
      | assign target value line =>
        cases target with
        | internalName name line' =>
          have hself : Expr.internalName name line' ∈ (Expr.internalName name line').walk :=
            Expr.walk_eq _ ▸ List.mem_cons_self
          exact absurd hself (hexprs _ List.mem_cons_self name line')
        | _ => rfl
      | _ => rfl
    rw [madeUpTargets_cons, hnone, ih, ih']
    rfl
  | @case name names more subject line branches fallback rest _ hbranches _ _ ih ih' =>
    rw [madeUpTargets_cons, madeUpTargets_append,
      madeUpTargets_caseChain fun b hb => (hbranches b hb).1, ih, ih']
    rfl

/-- **Nodes of a test**: those of its comparisons, and the disjunctions of them. -/
theorem CaseBranch.mem_walk_test {test d : Expr} (h : b.test? name = some test) (hd : d ∈ test.walk) :
    (∃ left right line, d = .or left right line) ∨
      ∃ value ∈ b.values, d ∈ (b.comparison name value).walk := by
  have hrest (values : List Expr) (hvalues : ∀ e ∈ values, e ∈ b.values) (first : Expr)
      (hfirst : ∀ d ∈ first.walk, (∃ left right line, d = .or left right line) ∨
        ∃ value ∈ b.values, d ∈ (b.comparison name value).walk) :
      ∀ d ∈ (values.foldl (fun e value => Expr.or e (b.comparison name value) b.line) first).walk,
        (∃ left right line, d = .or left right line) ∨
          ∃ value ∈ b.values, d ∈ (b.comparison name value).walk := by
    induction values generalizing first with
    | nil => exact hfirst
    | cons value values ih =>
      obtain ⟨hvalue, hvalues⟩ := List.forall_mem_cons.1 hvalues
      refine ih hvalues _ fun d hd => ?_
      rw [Expr.walk_eq] at hd
      rcases List.mem_cons.1 hd with rfl | hd
      · exact .inl ⟨_, _, _, rfl⟩
      · obtain ⟨c, hc, hd⟩ := List.mem_flatMap.1 hd
        rcases List.mem_pair.1 hc with heq | heq
        · exact hfirst d (heq ▸ hd)
        · exact .inr ⟨value, hvalue, heq ▸ hd⟩
  unfold CaseBranch.test? at h
  split at h
  · cases h
  · next value values hvalues =>
    obtain rfl := Option.some.inj h
    have hmem (e : Expr) (he : e ∈ value :: values) : e ∈ b.values := hvalues ▸ he
    refine hrest values (fun e he => hmem e (List.mem_cons_of_mem _ he)) _ (fun d hd => ?_) d hd
    exact .inr ⟨value, hmem value List.mem_cons_self, hd⟩

/-- **Every made-up name** is that of a case distinction. -/
theorem Cased.mem {names : List String} (h : Cased names ss)
    (he : .expr (.internalName text line) ∈ walkAll ss) : text ∈ names := by
  induction h with
  | nil => nomatch he
  | plain hexprs _ _ ih ih' =>
    rcases mem_walkAll_cons he with heq | ⟨e, he, x, hx, heq⟩ | he | he
    · nomatch heq
    · obtain rfl := Node.expr.inj heq
      exact absurd hx (hexprs e he text line)
    · exact List.mem_append_left _ (ih he)
    · exact List.mem_append_right _ (ih' he)
  | @case name names more subject l branches fallback rest hsubject hbranches _ _ ih ih' =>
    have hhere (h : text = name) : text ∈ name :: names ++ more :=
      h ▸ List.mem_cons_self
    rcases mem_walkAll_cons he with heq | ⟨e, he, x, hx, heq⟩ | he | he
    · nomatch heq
    · obtain rfl := Node.expr.inj heq
      rcases List.mem_pair.1 he with rfl | rfl
      · rw [Expr.walk_eq] at hx
        rcases List.mem_cons.1 hx with heq | hx
        · exact hhere (Expr.internalName.inj heq).1
        · nomatch hx
      · exact absurd hx (hsubject text line)
    · nomatch he
    · rw [walkAll_append, List.mem_append] at he
      rcases he with he | he
      · rcases mem_walkAll_caseChain he with ⟨b, hb, test, htest, ⟨_, heq⟩ | ⟨x, hx, heq⟩⟩ | he
        · nomatch heq
        · obtain rfl := Node.expr.inj heq
          rcases CaseBranch.mem_walk_test htest hx with ⟨_, _, _, hor⟩ | ⟨value, hvalue, hx⟩
          · nomatch hor
          · exact hhere (((hbranches b hb).2 value hvalue text).1 ⟨line, hx⟩)
        · exact List.mem_append_left _ (List.mem_cons_of_mem _ (ih he))
      · exact List.mem_append_right _ (ih' he)

/-! ### Statements made of tokens -/

/-- **What is read of tokens** has no made-up names. -/
theorem Expr.Fit.plain (h : e.Fit tokens none) : e.Plain := by
  intro text line hd
  obtain ⟨source, ts, us, -, -, -, hconsumes⟩ := h _ hd
  generalize hname : Expr.internalName text line = d at hconsumes
  cases hconsumes with
  | read hreads =>
    subst hname
    obtain ⟨ps, hlayout, -⟩ := hreads.layout
    nomatch hlayout
  | modifier _ _ he =>
    subst hname
    nomatch he
  | text | negation | capitals => nomatch hname
  | subject hown | comparison hown | either hown => nomatch hown

/-- **A comparison** with a value that has no made-up names. -/
theorem CaseBranch.comparison_mentions (hvalue : value.Plain) :
    (b.comparison name value).Mentions name := by
  have hwalk : (b.comparison name value).walk =
      b.comparison name value :: .internalName name b.line :: value.walk := by
    rw [Expr.walk_eq]
    show _ :: ((Expr.internalName name b.line).walk ++ (value.walk ++ [])) = _
    rw [Expr.walk_eq (.internalName name b.line), List.append_nil]
    rfl
  intro text
  constructor
  · rintro ⟨line, hmem⟩
    rw [hwalk] at hmem
    rcases List.mem_cons.1 hmem with heq | hmem
    · nomatch heq
    · rcases List.mem_cons.1 hmem with heq | hmem
      · exact (Expr.internalName.inj heq).1
      · exact absurd hmem (hvalue text line)
  · rintro rfl
    exact ⟨b.line, hwalk ▸ List.mem_cons_of_mem _ List.mem_cons_self⟩

/-- **The case distinctions** of statements that are made of tokens have increasing numbers. -/
theorem Lowered.cased (h : Lowered tokens m n ss) : ∃ names, Cased names ss ∧ Numbered m n names := by
  induction h with
  | nil => exact ⟨[], .nil, .nil⟩
  | plain hfit hbody hrest ih ih' =>
    obtain ⟨names, hnames, hnumbered⟩ := ih
    obtain ⟨more, hmore, hnumbered'⟩ := ih'
    refine ⟨names ++ more, .plain (fun e he => (hfit.exprs e he).plain) hnames hmore, ?_⟩
    exact hnumbered.append hnumbered' hbody.le hrest.le
  | case hm hfit hbodies hrest ih ih' =>
    obtain ⟨names, hnames, hnumbered⟩ := ih
    obtain ⟨more, hmore, hnumbered'⟩ := ih'
    refine ⟨_ :: names ++ more, .case hfit.subject.plain (fun b hb => ?_) hnames hmore, ?_⟩
    · obtain ⟨hne, hvalues⟩ := hfit.values b hb
      exact ⟨hne, fun value hvalue => b.comparison_mentions (hvalues value hvalue).plain⟩
    · -- The name of the subject comes before those in the bodies, and these before the others.
      have hhere := Numbered.next.append hnumbered (Nat.le_succ _) hbodies.le
      have hle := Nat.le_trans (Nat.le_succ _) hbodies.le
      exact (hhere.append hnumbered' hle hrest.le).weaken hm (Nat.le_refl _)

/-- **The made-up names that statements assign to.** -/
theorem Lowered.numbered (h : Lowered tokens m n ss) : Numbered m n (madeUpTargets ss) := by
  obtain ⟨names, hcased, hnumbered⟩ := h.cased
  exact hcased.targets ▸ hnumbered

/-! ### Names that are spelled -/

/-- The arguments of an expression. -/
def Expr.arguments? : Expr → Option (Arguments Expr)
  | call _ args _ | filter _ _ args _ | test _ _ args _ => some args
  | _ => none

/-- **Names in a template**: those that are expressions, those of imports, macros, blocks and options,
and the keys of arguments. -/
inductive NamedIn (body : List Stmt) : String → Prop where
  | node {text : String} {use : Context} {line : Nat} (h : .expr (.name text use line) ∈ walkAll body) :
      NamedIn body text
  | stmt {s : Stmt} {text : String} (h : .stmt s ∈ walkAll body) (htext : text ∈ s.names) :
      NamedIn body text
  | key {e : Expr} {args : Arguments Expr} {k : Keyword Expr} (h : .expr e ∈ walkAll body)
      (hargs : e.arguments? = some args) (hk : k ∈ args.keywords) : NamedIn body k.key

/-- The names in the tokens of a template begin as names. So do those that a range literal adds. -/
theorem Token.Source.named (h : Token.Source tokens source) (hproper : ∀ t ∈ tokens, ∀ text,
      t.kind = .name text → ∃ c ∈ text.toList.head?, isNameStart c = true) :
    ∀ t ∈ source, ∀ text, t.kind = .name text → ∃ c ∈ text.toList.head?, isNameStart c = true := by
  induction h with
  | template => exact hproper
  | @range ts first stop t a b _ _ _ hfirst hstop _ =>
    have hbound {bound : String} {inner : List Token}
        (hinner : Token.ofExpression bound t.line t.span.lo = .ok inner) (u : Token) (hu : u ∈ inner)
        (text : String) (hk : u.kind = .name text) :
        ∃ c ∈ text.toList.head?, isNameStart c = true := by
      obtain ⟨tag, htag, rfl⟩ := exists_of_map_eq_ok hinner
      have hkind := TagTokens.read_proper (by simp) htag u hu
      rw [hk] at hkind
      exact hkind
    intro u hu text hk
    unfold TokenStream.close at hu
    have hcases : u ∈ rangeTokens t first stop ∨
        u = TokenStream.endAfter (rangeTokens t first stop) := by
      split at hu
      · exact .inl hu
      · exact (List.mem_append.1 hu).imp_right List.mem_singleton.1
    rcases hcases with hu | rfl
    · simp only [rangeTokens, List.cons_append, List.mem_cons, List.mem_append, List.map_cons,
        List.map_nil, List.not_mem_nil, or_false] at hu
      rcases hu with rfl | (hu | rfl | hu) | rfl | rfl | rfl | rfl | rfl | rfl | rfl | rfl
      case inr.inl.inl => exact hbound hfirst u hu text hk
      case inr.inl.inr.inr => exact hbound hstop u hu text hk
      all_goals cases hk
      all_goals exact ⟨_, rfl, by decide⟩
    · rw [Token.isEnd_iff.1 (TokenStream.isEnd_endAfter _)] at hk
      cases hk

/-- **No name that is spelled** is made up. -/
theorem Token.Spelled.ne_internalName {d : Delimiters} {template : String}
    (htokens : Token.ofTemplate d template = .ok tokens) (h : Token.Spelled tokens text)
    (number : Nat) : text ≠ internalName number := by
  obtain ⟨source, hsource, t, ht, hk⟩ := h
  refine LiquidTemplate.ne_internalName (hsource.named (fun u hu word hword => ?_) t ht text hk) number
  obtain ⟨proper, last, rfl, hproper, hlast⟩ := Token.ofTemplate_eq htokens
  rcases List.mem_append.1 hu with hu | hu
  · have hkind := hproper u hu
    rw [hword] at hkind
    exact hkind
  · rw [List.mem_singleton.1 hu, hlast] at hword
    nomatch hword

/-- A word among the pieces of an expression is a name among its tokens. -/
theorem Forms.spelled (h : Forms ts us ps) (hsource : Token.Source tokens source) (hts : ts <:+ source)
    (hword : .word text ∈ ps) : Token.Spelled tokens text := by
  obtain ⟨t, ht, hfits⟩ := h.exists_fits hword
  exact ⟨source, hsource, t, hts.subset ht, Token.isName_iff.1 hfits⟩

/-- **The name of a node** for which tokens are consumed, and the keys of its arguments. -/
theorem Expr.ConsumedIn.spelled (h : e.ConsumedIn tokens own) :
    (∀ text use line, e = .name text use line → Token.Spelled tokens text) ∧
      ∀ args, e.arguments? = some args → ∀ k ∈ args.keywords, Token.Spelled tokens k.key := by
  obtain ⟨source, ts, us, hsource, hts, -, hconsumes⟩ := h
  cases hconsumes with
  | read hreads =>
    obtain ⟨ps, hlayout, hforms⟩ := hreads.layout
    constructor
    · rintro text use line rfl
      cases hlayout
      exact hforms.spelled hsource hts List.mem_cons_self
    · intro args hargs k hk
      refine hforms.spelled hsource hts ?_
      cases hlayout <;> cases hargs
      case read.right.call.refl happ => exact List.mem_cons_of_mem _ (happ.keywords hk)
      case read.right.blockFilter.refl happ => exact List.mem_append_right _ (happ.keywords hk)
      case read.right.filter.refl happ => exact List.mem_append_right _ (happ.keywords hk)
      case read.right.test.refl happ => exact List.mem_append_right _ (happ.keywords hk)
      case read.right.negatedTest.refl happ => exact List.mem_append_right _ (happ.keywords hk)
  | modifier _ _ he =>
    constructor
    · rintro text use line rfl
      nomatch he
    · intro args hargs k hk
      cases he <;> cases hargs
      nomatch hk
  | capitals =>
    refine ⟨nofun, fun args hargs k hk => ?_⟩
    cases hargs
    nomatch hk
  | text | negation | subject | comparison | either => exact ⟨nofun, nofun⟩

/-- **The names of statements.** Those that a case distinction is made of have none. -/
theorem Lowered.names (h : Lowered tokens m n ss) {stmt : Stmt} (hs : .stmt stmt ∈ walkAll ss) :
    ∀ text ∈ stmt.names, Token.Spelled tokens text := by
  induction h with
  | nil => nomatch hs
  | plain hfit _ _ ih ih' =>
    rcases mem_walkAll_cons hs with heq | ⟨_, _, _, _, heq⟩ | hs | hs
    · obtain rfl := Node.stmt.inj heq
      exact hfit.names
    · nomatch heq
    · exact ih hs
    · exact ih' hs
  | case _ _ _ _ ih ih' =>
    rcases mem_walkAll_cons hs with heq | ⟨_, _, _, _, heq⟩ | hs | hs
    · obtain rfl := Node.stmt.inj heq
      exact nofun
    · nomatch heq
    · nomatch hs
    · rw [walkAll_append, List.mem_append] at hs
      rcases hs with hs | hs
      · rcases mem_walkAll_caseChain hs with ⟨b, hb, test, htest, ⟨_, heq⟩ | ⟨_, _, heq⟩⟩ | hs
        · obtain rfl := Node.stmt.inj heq
          exact nofun
        · nomatch heq
        · exact ih hs
      · exact ih' hs

/-- **All names in a template** are spelled by its tokens. -/
theorem Lowered.spelled (h : Lowered tokens m n body) (hname : NamedIn body text) :
    Token.Spelled tokens text := by
  cases hname with
  | node hmem =>
    obtain ⟨own, hconsumed⟩ := h.consumed hmem
    exact hconsumed.spelled.1 _ _ _ rfl
  | stmt hmem htext => exact h.names hmem text htext
  | key hmem hargs hk =>
    obtain ⟨own, hconsumed⟩ := h.consumed hmem
    exact hconsumed.spelled.2 _ hargs _ hk

end LiquidTemplate
