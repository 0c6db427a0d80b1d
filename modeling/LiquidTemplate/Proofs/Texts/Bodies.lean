import LiquidTemplate.Proofs.Texts.Expressions

/-!
# Texts of bodies

What a parser of statements gives has the texts that were kept of the tokens it has consumed.

* `keptFrom_stepped`, `keptFrom_passes`: what steps and plain tokens do to the texts that are kept.
* `Parser.Tells`: a parser on the way from one place to another one, and the texts between them.
* `Grammar.Faithful`: a grammar that tells the texts of its statements.
* `BodyStep`: what a part of a body is.
* `tells_statements`, `tells_closed`: the body of a statement.
-/

namespace LiquidTemplate

open LiquidTemplate.Parser LiquidTemplate.Grammar

variable {α β : Type} {dropping : Bool} {drops : List Bool} {s t : ParserState} {tag : String}

/-! ### Steps -/

theorem Token.Kind.Plain.text? {t : Token} (h : t.kind.Plain) : t.text? = none := by
  unfold Token.text?
  split
  · next data hk =>
      rw [hk] at h
      exact h.elim
  · rfl

/-- Behind a plain token the place is the same, unless it is the name of a tag. -/
theorem Place.next_plain {k : Token.Kind} (h : k.Plain) :
    Place.next dropping ⟨false, drops⟩ k = ⟨false, drops⟩ := by
  cases k with
  | mark m =>
      cases m with
      | blockBegin => exact h.elim
      | _ => rfl
  | _ => rfl

/-- **Plain tokens** have nothing to do with texts. -/
theorem keptFrom_passes (h : s.Passes t) :
    keptFrom dropping ⟨false, drops⟩ s.stream.tokens =
      keptFrom dropping ⟨false, drops⟩ t.stream.tokens := by
  obtain ⟨used, hs, hplain⟩ := h
  rw [hs]
  clear hs
  induction used with
  | nil => rfl
  | cons u used ih =>
      have hu := hplain u List.mem_cons_self
      rw [List.cons_append, keptFrom, hu.text?, Place.next_plain hu, Option.toList_none,
        Place.kept_nil, List.nil_append]
      exact ih fun x hx => hplain x (List.mem_cons_of_mem _ hx)

theorem ParserState.Passes.suffix (h : s.Passes t) : t.stream.tokens <:+ s.stream.tokens := by
  obtain ⟨used, hs, _⟩ := h
  exact ⟨used, hs.symm⟩

/-- **A step** from a token that is not the end of the template. -/
theorem keptFrom_stepped (p : Place) {k : Token.Kind} (hk : s.stream.current.kind = k)
    (h : k.type ≠ .mark .endOfTemplate) :
    keptFrom dropping p s.stream.tokens = p.kept s.stream.current.text?.toList ++
      keptFrom dropping (p.next dropping k) s.stepped.stream.tokens := by
  rw [s.tokens_stepped hk h, ← hk]
  rfl

/-- A step from the name of a tag. -/
theorem keptFrom_tag (hk : s.stream.current.kind = .name tag) :
    keptFrom dropping ⟨true, drops⟩ s.stream.tokens =
      keptFrom dropping ⟨false, Place.dropsBehind dropping tag drops⟩ s.stepped.stream.tokens := by
  rw [keptFrom_stepped _ hk nofun, Token.text?, hk, Option.toList_none, Place.kept_nil]
  rfl

/-- A step from the beginning of a tag. -/
theorem keptFrom_begin (hk : s.stream.current.kind = .mark .blockBegin) :
    keptFrom dropping ⟨false, drops⟩ s.stream.tokens =
      keptFrom dropping ⟨true, drops⟩ s.stepped.stream.tokens := by
  rw [keptFrom_stepped _ hk nofun, Token.text?, hk, Option.toList_none, Place.kept_nil]
  rfl

/-! ### Parsers that tell texts -/

/-- **Worded**: no data token is empty. -/
def ParserState.Worded (s : ParserState) : Prop :=
  ∀ t ∈ s.stream.tokens, ∀ data, t.kind = .data data → data.isEmpty = false

theorem ParserState.Worded.mono (h : s.Worded) (hsuf : t.stream.tokens <:+ s.stream.tokens) :
    t.Worded :=
  fun x hx => h x (hsuf.subset hx)

namespace Parser

variable {p : Parser α} {f : α → Parser β} {a b c : Place} {post : α → Texts → Prop}
  {post' : β → Texts → Prop}

/-- **Telling.** If the parser succeeds in this state, at the place `a`, it comes to the place `b`;
`post` holds of its value and of the texts between them. -/
def Tells (dropping : Bool) (p : Parser α) (s : ParserState) (a b : Place)
    (post : α → Texts → Prop) : Prop :=
  s.Worded → ∀ x t, p s = .ok x t → t.stream.tokens <:+ s.stream.tokens ∧ ∃ texts,
    keptFrom dropping a s.stream.tokens = a.kept texts ++ keptFrom dropping b t.stream.tokens ∧
      post x texts

theorem Tells.pure {x : α} (h : post x []) : Tells dropping (Pure.pure x) s a a post := by
  intro _ y t hy
  obtain ⟨rfl, rfl⟩ : x = y ∧ s = t := EStateM.Result.ok.inj hy
  exact ⟨List.suffix_refl _, [], by rw [Place.kept_nil, List.nil_append], h⟩

/-- What is told with the current token. -/
theorem Tells.see {f : Token → Parser β} (h : Tells dropping (f s.stream.current) s a b post') :
    Tells dropping (current >>= f) s a b post' :=
  h

/-- **One part after another.** Both have to be places where the same is dropped. -/
theorem Tells.bind_ok (hp : Tells dropping p s a b post) (hab : b.drops.any id = a.drops.any id)
    (hf : ∀ x t texts, s.Worded → p s = .ok x t → post x texts →
      Tells dropping (f x) t b c (fun y more => post' y (texts ++ more))) :
    Tells dropping (p >>= f) s a c post' := by
  intro hw y u h
  obtain ⟨x, t, hx, hy⟩ := bind_eq_ok.1 h
  obtain ⟨hsuf, texts, htexts, hpost⟩ := hp hw x t hx
  obtain ⟨hsuf', more, hmore, hpost'⟩ := hf x t texts hw hx hpost (hw.mono hsuf) y u hy
  have hkept : b.kept more = a.kept more := by rw [Place.kept, Place.kept, hab]
  refine ⟨hsuf'.trans hsuf, texts ++ more, ?_, hpost'⟩
  rw [htexts, hmore, hkept, Place.kept_append, List.append_assoc]

/-- What is told by a part and by what is made of its value. -/
theorem Tells.finish {f : α → β} (hp : Tells dropping p s a b post)
    (hf : ∀ x texts, post x texts → post' (f x) texts) :
    Tells dropping (do let x ← p; return f x) s a b post' := by
  intro hw y u h
  obtain ⟨x, t, hx, hy⟩ := bind_eq_ok.1 h
  obtain ⟨rfl, rfl⟩ := EStateM.Result.ok.inj hy
  obtain ⟨hsuf, texts, htexts, hpost⟩ := hp hw x t hx
  exact ⟨hsuf, texts, htexts, hf x texts hpost⟩

/-- What is told behind a quiet part. -/
theorem Tells.quiet {post : α → Prop} (hp : Quiet p s post)
    (hf : ∀ x t, post x → Tells dropping (f x) t ⟨false, drops⟩ c post') :
    Tells dropping (p >>= f) s ⟨false, drops⟩ c post' := by
  intro hw y u h
  obtain ⟨x, t, hx, hy⟩ := bind_eq_ok.1 h
  obtain ⟨hpass, hpost⟩ := hp x t hx
  obtain ⟨hsuf, texts, htexts, hpost'⟩ := hf x t hpost (hw.mono hpass.suffix) y u hy
  exact ⟨hsuf.trans hpass.suffix, texts, (keptFrom_passes hpass).trans htexts, hpost'⟩

/-- What is told behind the name of a tag that is taken. -/
theorem Tells.take {f : Token → Parser β} {outer : List Bool}
    (hk : s.stream.current.kind = .name tag)
    (houter : Place.dropsBehind dropping tag drops = outer) (hany : outer.any id = drops.any id)
    (h : Tells dropping (f s.stream.current) s.stepped ⟨false, outer⟩ c post') :
    Tells dropping (advance >>= f) s ⟨true, drops⟩ c post' := by
  intro hw y u hy
  obtain ⟨hsuf, texts, htexts, hpost⟩ := h (hw.mono s.stepped_suffix) y u hy
  refine ⟨hsuf.trans s.stepped_suffix, texts, ?_, hpost⟩
  rw [keptFrom_tag hk, houter, htexts, Place.kept, Place.kept, hany]

/-- What is told behind the name of a tag that is demanded. -/
theorem Tells.demand {f : Token → Parser β} {rule : TokenRule} {outer : List Bool}
    (hk : s.stream.current.kind = .name tag)
    (houter : Place.dropsBehind dropping tag drops = outer) (hany : outer.any id = drops.any id)
    (h : Tells dropping (f s.stream.current) s.stepped ⟨false, outer⟩ c post') :
    Tells dropping (expect rule >>= f) s ⟨true, drops⟩ c post' := by
  intro hw y u hy
  obtain ⟨tok, t, ht, hy⟩ := bind_eq_ok.1 hy
  obtain ⟨_, rfl, rfl⟩ := expect_eq_ok.1 ht
  exact Tells.take (f := f) hk houter hany h hw y u hy

theorem quiet_skipIf (rule : TokenRule) (hrule : rule.Plain) :
    Quiet (skipIf rule) s (fun _ => True) := by
  have h : Quiet (skipIf rule >>= Pure.pure) s (fun _ => True) :=
    Quiet.skips hrule (Quiet.pure trivial) (Quiet.pure trivial)
  rwa [bind_pure] at h

theorem quiet_expect (rule : TokenRule) (hrule : rule.Plain) :
    Quiet (expect rule) s (fun _ => True) := by
  have h : Quiet (expect rule >>= Pure.pure) s (fun _ => True) :=
    Quiet.demand hrule (Quiet.pure trivial)
  rwa [bind_pure] at h

end Parser

/-! ### Faithful grammars -/

/-- **Said** by a tag: the texts of the statements that it stands for. -/
def Expansion.Says (x : Expansion) (texts : Texts) : Prop :=
  textsOf x.toList = texts

/-- **Said** by a statement: its texts. -/
def Stmt.Says (s : Stmt) (texts : Texts) : Prop :=
  s.texts = texts

/-- **Said** by a body: the texts of its statements. -/
def SaysAll (body : List Stmt) (texts : Texts) : Prop :=
  textsOf body = texts

/-- **A faithful grammar** tells the texts of the statements that its productions refer to. The
alternatives of a condition stand in its tag. -/
structure Grammar.Faithful (dropping : Bool) (g : Grammar) : Prop extends Hushed g where
  statement : ∀ s drops,
    Tells dropping g.statement s ⟨true, drops⟩ ⟨false, drops⟩ Expansion.Says
  branch : ∀ line tag s drops, tag = "if" ∨ tag = "unless" →
    Tells dropping (g.branch line tag) s ⟨false, false :: drops⟩ ⟨false, drops⟩ Stmt.Says

variable {g : Grammar}

/-! ### Bodies -/

/-- The texts of what has been read of a body. -/
def PartialBody.texts (b : PartialBody) : Texts :=
  textsOf b.stmts ++ b.pending.flatMap Expr.texts

theorem Stmt.texts_output (nodes : List Expr) (line : Nat) :
    (Stmt.output nodes line).texts = nodes.flatMap Expr.texts := by
  rw [texts_eq]
  exact List.append_nil _

/-- **Flushing** loses no text. -/
theorem PartialBody.texts_flush (b : PartialBody) :
    textsOf b.flush.stmts = b.texts ∧ b.flush.pending = [] := by
  obtain ⟨stmts, pending⟩ := b
  cases pending with
  | nil => exact ⟨(List.append_nil _).symm, rfl⟩
  | cons e es =>
      refine ⟨?_, rfl⟩
      show textsOf (stmts ++ [.output (e :: es) e.line]) = _
      rw [textsOf_append, texts, textsOf_singleton, Stmt.texts_output]

theorem PartialBody.texts_addOutput (b : PartialBody) (e : Expr) :
    (b.addOutput e).texts = b.texts ++ e.texts := by
  simp [texts, addOutput]

theorem PartialBody.texts_addStatements (b : PartialBody) (ss : List Stmt) :
    (b.flush.addStatements ss).texts = b.texts ++ textsOf ss := by
  obtain ⟨hflush, hpending⟩ := b.texts_flush
  rw [texts, addStatements, hpending, textsOf_append, hflush]
  exact List.append_nil _

theorem Expr.texts_templateData (data : String) (line : Nat) :
    (templateData data line).texts = [(data, line)] :=
  texts_eq _

theorem PartialBody.texts_addText (b : PartialBody) {data : String} (line : Nat)
    (hdata : data.isEmpty = false) : (b.addText data line).texts = b.texts ++ [(data, line)] := by
  rw [addText, hdata, if_neg Bool.false_ne_true, texts_addOutput, Expr.texts_templateData]

theorem quiet_output (hg : g.Hushed) : (parseOutput g).Whispers := fun s =>
  (quiet_anyTuple hg s).bind fun _ he _ => Quiet.demand trivial (Quiet.pure he)

theorem tells_closedStatement (hg : g.Faithful dropping) :
    Tells dropping (parseClosedStatement g) s ⟨true, drops⟩ ⟨false, drops⟩ SaysAll := by
  refine (hg.statement s drops).bind_ok rfl fun x t texts _ _ htexts => ?_
  refine Tells.quiet (quiet_expect _ trivial) fun _ u _ => Tells.pure ?_
  rw [List.append_nil]
  exact htexts

/-- **What a part of a body is**, by the token that it begins with. -/
inductive BodyStep (g : Grammar) (ends : List TokenRule) (b : PartialBody) (s : ParserState) :
    PartialBody ⊕ List Stmt → ParserState → Prop
  | text {data : String} (hk : s.stream.current.kind = .data data) :
      BodyStep g ends b s (.inl (b.addText data s.stream.current.line)) s.stepped
  | output {e : Expr} {t : ParserState} (hk : s.stream.current.kind = .mark .variableBegin)
      (h : parseOutput g s.stepped = .ok e t) : BodyStep g ends b s (.inl (b.addOutput e)) t
  | statement {ss : List Stmt} {t : ParserState}
      (hk : s.stream.current.kind = .mark .blockBegin)
      (h : parseClosedStatement g s.stepped = .ok ss t) :
      BodyStep g ends b s (.inl (b.flush.addStatements ss)) t
  | endTag (hk : s.stream.current.kind = .mark .blockBegin)
      (h : s.stepped.stream.current.fitsAny ends = true) :
      BodyStep g ends b s (.inr b.flush.stmts) s.stepped
  | endOfTemplate (hk : s.stream.current.kind = .mark .endOfTemplate) :
      BodyStep g ends b s (.inr b.flush.stmts) s

theorem bodyStep_of_ok {ends : List TokenRule} {b : PartialBody} {r : PartialBody ⊕ List Stmt}
    (h : parseBodyPart g ends b s = .ok r t) : BodyStep g ends b s r t := by
  obtain ⟨tok, v, hv, h⟩ := bind_eq_ok.1 h
  obtain ⟨rfl, rfl⟩ := current_eq_ok.1 hv
  cases hk : v.stream.current.kind with
  | data data =>
      rw [hk] at h
      obtain ⟨rfl, rfl⟩ := EStateM.Result.ok.inj h
      exact .text hk
  | mark m =>
      rw [hk] at h
      cases m with
      | endOfTemplate =>
          obtain ⟨rfl, rfl⟩ := EStateM.Result.ok.inj h
          exact .endOfTemplate hk
      | variableBegin =>
          obtain ⟨_, u, hu, h⟩ := bind_eq_ok.1 h
          obtain rfl := step_eq_ok.1 hu
          obtain ⟨e, w, hw, h⟩ := bind_eq_ok.1 h
          obtain ⟨rfl, rfl⟩ := EStateM.Result.ok.inj h
          exact .output hk hw
      | blockBegin =>
          obtain ⟨_, u, hu, h⟩ := bind_eq_ok.1 h
          obtain rfl := step_eq_ok.1 hu
          obtain ⟨tok, u, hu, h⟩ := bind_eq_ok.1 h
          obtain ⟨rfl, rfl⟩ := current_eq_ok.1 hu
          split at h
          · next hfits =>
              obtain ⟨rfl, rfl⟩ := EStateM.Result.ok.inj h
              exact .endTag hk hfits
          · obtain ⟨ss, w, hss, h⟩ := bind_eq_ok.1 h
            obtain ⟨rfl, rfl⟩ := EStateM.Result.ok.inj h
            exact .statement hk hss
      | _ => nomatch h
  | _ =>
      rw [hk] at h
      nomatch h

/-- **One part of a body** adds the texts of its tokens. -/
theorem told_part (drops : List Bool) (hg : g.Faithful dropping) {ends : List TokenRule}
    {b b' : PartialBody} (hw : s.Worded) (h : parseBodyPart g ends b s = .ok (.inl b') t) :
    t.stream.tokens <:+ s.stream.tokens ∧ ∃ texts, b'.texts = b.texts ++ texts ∧
      keptFrom dropping ⟨false, drops⟩ s.stream.tokens =
        Place.kept ⟨false, drops⟩ texts ++ keptFrom dropping ⟨false, drops⟩ t.stream.tokens := by
  cases bodyStep_of_ok h with
  | @text data hk =>
      have hdata := hw _ List.mem_cons_self data hk
      refine ⟨s.stepped_suffix, [(data, s.stream.current.line)], b.texts_addText _ hdata, ?_⟩
      rw [keptFrom_stepped _ hk nofun, Token.text?, hk]
      rfl
  | output hk hread =>
      have hplain : s.stream.current.kind.Plain := by
        rw [hk]
        trivial
      obtain ⟨hpass, he⟩ := quiet_output hg.toHushed _ _ _ hread
      have hpass := (s.passes_stepped hplain).trans hpass
      have he : Expr.texts _ = [] := he
      refine ⟨hpass.suffix, [], by rw [PartialBody.texts_addOutput, he], ?_⟩
      rw [Place.kept_nil]
      exact keptFrom_passes hpass
  | statement hk hread =>
      obtain ⟨hsuf, texts, htexts, hsays⟩ :=
        tells_closedStatement hg (hw.mono s.stepped_suffix) _ _ hread
      have hsays : textsOf _ = texts := hsays
      refine ⟨hsuf.trans s.stepped_suffix, texts,
        by rw [PartialBody.texts_addStatements, hsays], ?_⟩
      rw [keptFrom_begin hk]
      exact htexts

theorem fitsAny_names {tok : Token} {tags : List String}
    (h : tok.fitsAny (tags.map .name) = true) : ∃ tag ∈ tags, tok.kind = .name tag := by
  obtain ⟨rule, hrule, hfits⟩ := List.any_eq_true.1 h
  obtain ⟨tag, htag, rfl⟩ := List.mem_map.1 hrule
  exact ⟨tag, htag, Token.isName_iff.1 hfits⟩

/-- **The end of a body**: the end of the template, or the name of an end tag behind the beginning
of that tag. -/
theorem told_end (dropping : Bool) (drops : List Bool) {tags : List String} {b : PartialBody}
    {body : List Stmt} (h : parseBodyPart g (tags.map .name) b s = .ok (.inr body) t) :
    textsOf body = b.texts ∧ (t = s ∧ s.stream.current.isEnd = true ∨
      t = s.stepped ∧ (∃ tag ∈ tags, t.stream.current.kind = .name tag) ∧
        keptFrom dropping ⟨false, drops⟩ s.stream.tokens =
          keptFrom dropping ⟨true, drops⟩ t.stream.tokens) := by
  cases bodyStep_of_ok h with
  | endTag hk hfits =>
      exact ⟨b.texts_flush.1, .inr ⟨rfl, fitsAny_names hfits, keptFrom_begin hk⟩⟩
  | endOfTemplate hk => exact ⟨b.texts_flush.1, .inl ⟨rfl, Token.isEnd_iff.2 hk⟩⟩

/-- What has been told of a body that was begun in the state `s`. -/
def ToldSince (dropping : Bool) (drops : List Bool) (s : ParserState) (b : PartialBody)
    (t : ParserState) : Prop :=
  t.stream.tokens <:+ s.stream.tokens ∧ keptFrom dropping ⟨false, drops⟩ s.stream.tokens =
    Place.kept ⟨false, drops⟩ b.texts ++ keptFrom dropping ⟨false, drops⟩ t.stream.tokens

/-- **A body** up to the end of the template or to the name of an end tag. -/
theorem told_body (drops : List Bool) (hg : g.Faithful dropping) {tags : List String}
    {body : List Stmt} (hw : s.Worded)
    (h : repeatFrom (parseBodyPart g (tags.map .name)) {} s = .ok body t) :
    t.stream.tokens <:+ s.stream.tokens ∧ ∃ p : Place, p.drops = drops ∧
      keptFrom dropping ⟨false, drops⟩ s.stream.tokens =
        Place.kept ⟨false, drops⟩ (textsOf body) ++ keptFrom dropping p t.stream.tokens ∧
      (p.atTag = false ∧ t.stream.current.isEnd = true ∨
        p.atTag = true ∧ ∃ tag ∈ tags, t.stream.current.kind = .name tag) := by
  have hfirst : ToldSince dropping drops s {} s :=
    ⟨List.suffix_refl _, congrArg (· ++ _) (Place.kept_nil _).symm⟩
  have hround (b u b' v) (htold : ToldSince dropping drops s b u)
      (hpart : parseBodyPart g (tags.map .name) b u = .ok (.inl b') v)
      (_ : v.remaining < u.remaining) : ToldSince dropping drops s b' v := by
    obtain ⟨hsuf, hkept⟩ := htold
    obtain ⟨hsuf', texts, htexts, hkept'⟩ := told_part drops hg (hw.mono hsuf) hpart
    refine ⟨hsuf'.trans hsuf, ?_⟩
    rw [hkept, hkept', htexts, Place.kept_append, List.append_assoc]
  obtain ⟨b, u, ⟨hsuf, hkept⟩, hlast⟩ := repeatFrom_induction _ hround hfirst h
  obtain ⟨hbody, ⟨rfl, hend⟩ | ⟨rfl, hname, hkept'⟩⟩ := told_end dropping drops hlast
  · exact ⟨hsuf, ⟨false, drops⟩, rfl, by rw [hbody, hkept], .inl ⟨rfl, hend⟩⟩
  · exact ⟨u.stepped_suffix.trans hsuf, ⟨true, drops⟩, rfl, by rw [hbody, hkept, hkept'],
      .inr ⟨rfl, hname⟩⟩

/-- **The body of a statement** up to the name of one of its end tags. -/
theorem told_statements (drops : List Bool) (hg : g.Faithful dropping) {tags : List String}
    {body : List Stmt} (hw : s.Worded) (h : parseStatements g (tags.map .name) false s = .ok body t) :
    (∃ tag ∈ tags, t.stream.current.kind = .name tag) ∧
      t.stream.tokens <:+ s.stream.tokens ∧
      keptFrom dropping ⟨false, drops⟩ s.stream.tokens =
        Place.kept ⟨false, drops⟩ (textsOf body) ++
          keptFrom dropping ⟨true, drops⟩ t.stream.tokens := by
  obtain ⟨found, u, hu, h⟩ := bind_eq_ok.1 h
  obtain ⟨hpass, -⟩ := quiet_skipIf (.type (.symbol .colon)) trivial _ _ hu
  obtain ⟨tok, v, hv, h⟩ := bind_eq_ok.1 h
  obtain ⟨hpass', -⟩ := quiet_expect (.type (.mark .blockEnd)) trivial _ _ hv
  have hpass := hpass.trans hpass'
  obtain ⟨ss, w, hss, h⟩ := bind_eq_ok.1 h
  obtain ⟨v', w', hstream, hstream', hss⟩ := awaiting_eq_ok hss
  have hw' : v'.Worded := by
    rw [ParserState.Worded, hstream]
    exact hw.mono hpass.suffix
  obtain ⟨hsuf, p, hp, hkept, hend⟩ := told_body drops hg hw' hss
  rw [hstream, hstream'] at hsuf hkept
  rw [hstream'] at hend
  obtain ⟨tok', w'', hcur, h⟩ := bind_eq_ok.1 h
  obtain ⟨rfl, rfl⟩ := current_eq_ok.1 hcur
  split at h
  · nomatch h
  · next hnot =>
      obtain ⟨rfl, rfl⟩ := EStateM.Result.ok.inj h
      rcases hend with ⟨-, hend⟩ | ⟨hat, hname⟩
      · exact absurd hend hnot
      · obtain rfl : p = ⟨true, drops⟩ := congr (congrArg Place.mk hat) hp
        exact ⟨hname, hsuf.trans hpass.suffix, (keptFrom_passes hpass).trans hkept⟩

theorem tells_statements (hg : g.Faithful dropping) (tags : List String) :
    Tells dropping (parseStatements g (tags.map .name) false) s ⟨false, drops⟩ ⟨true, drops⟩
      SaysAll := by
  intro hw body t h
  obtain ⟨_, hsuf, hkept⟩ := told_statements drops hg hw h
  exact ⟨hsuf, _, hkept, rfl⟩

/-- The name of the end tag can be consumed as well. -/
theorem parseStatements_consume {ends : List TokenRule} {body : List Stmt}
    (h : parseStatements g ends true s = .ok body t) :
    ∃ u, parseStatements g ends false s = .ok body u ∧ t = u.stepped := by
  obtain ⟨found, u, hu, h⟩ := bind_eq_ok.1 h
  obtain ⟨tok, v, hv, h⟩ := bind_eq_ok.1 h
  obtain ⟨ss, w, hss, h⟩ := bind_eq_ok.1 h
  obtain ⟨tok', w', hcur, h⟩ := bind_eq_ok.1 h
  obtain ⟨rfl, rfl⟩ := current_eq_ok.1 hcur
  split at h
  · nomatch h
  · next hnot =>
      obtain ⟨rfl, rfl⟩ := EStateM.Result.ok.inj h
      refine ⟨w', ?_, rfl⟩
      refine bind_eq_ok.2 ⟨found, u, hu, bind_eq_ok.2 ⟨tok, v, hv, bind_eq_ok.2 ⟨ss, w', hss, ?_⟩⟩⟩
      refine bind_eq_ok.2 ⟨_, w', current_eq_ok.2 ⟨rfl, rfl⟩, ?_⟩
      rw [if_neg hnot]
      rfl

/-- **The body of a statement** with its end tag. -/
theorem tells_closed (hg : g.Faithful dropping) {outer : List Bool}
    (houter : Place.dropsBehind dropping tag drops = outer) :
    Tells dropping (parseStatements g [.name tag] true) s ⟨false, drops⟩ ⟨false, outer⟩ SaysAll := by
  intro hw body t h
  obtain ⟨u, hu, rfl⟩ := parseStatements_consume h
  have htags : parseStatements g ([tag].map .name) false s = .ok body u := hu
  obtain ⟨⟨name, hname, hk⟩, hsuf, hkept⟩ := told_statements drops hg hw htags
  obtain rfl := List.mem_singleton.1 hname
  refine ⟨u.stepped_suffix.trans hsuf, textsOf body, ?_, rfl⟩
  rw [hkept, keptFrom_tag hk, houter]

end LiquidTemplate
