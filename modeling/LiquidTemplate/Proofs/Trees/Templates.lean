import LiquidTemplate.Proofs.Texts.Templates
import LiquidTemplate.Proofs.Trees.Statements

/-!
# The trees of templates

Whatever the source and the delimiters are, and whichever of the known extensions an environment
has: every node of the tree of a template fits its role.

* `Stmt.stored`, `Stmt.bound`, `Stmt.read`: what a statement does with its expressions.
* `sound_of_template`: the tree of a template is sound.
* `contexts_of_template`: the uses of names.
* `roles_of_template`: the shapes of nodes.
-/

namespace LiquidTemplate

open LiquidTemplate.Parser LiquidTemplate.Grammar

variable {env : Environment} {body : List Stmt} {r : Role} {e x : Expr} {s t : Stmt}

/-! ### Walks -/

theorem walkAll_append (body rest : List Stmt) : walkAll (body ++ rest) = walkAll body ++ walkAll rest :=
  List.flatMap_append

/-- **What a walk meets** in a statement and in those behind it. -/
theorem mem_walkAll_cons {n : Node} {rest : List Stmt} (h : n ∈ walkAll (s :: rest)) :
    n = .stmt s ∨ (∃ e ∈ s.exprs, ∃ x ∈ e.walk, n = .expr x) ∨ n ∈ walkAll s.body ∨
      n ∈ walkAll rest := by
  rw [walkAll, List.flatMap_cons, Stmt.walk_eq, List.mem_append] at h
  rcases h with h | h
  · rcases List.mem_cons.1 h with h | h
    · exact .inl h
    rcases List.mem_append.1 h with h | h
    · obtain ⟨x, hx, rfl⟩ := List.mem_map.1 h
      obtain ⟨e, he, hx⟩ := List.mem_flatMap.1 hx
      exact .inr (.inl ⟨e, he, x, hx, rfl⟩)
    · exact .inr (.inr (.inl h))
  · exact .inr (.inr (.inr h))

/-! ### Walks through sound trees -/

/-- Every expression that a walk meets is below one that stands directly in a statement. -/
theorem Stmt.expr_of_mem_walk {s : Stmt} (h : .expr x ∈ s.walk) :
    ∃ t, .stmt t ∈ s.walk ∧ ∃ e ∈ t.exprs, x ∈ e.walk := by
  rw [walk_eq] at h ⊢
  rcases List.mem_cons.1 h with h | h
  · nomatch h
  rcases List.mem_append.1 h with h | h
  · obtain ⟨y, hy, hyx⟩ := List.mem_map.1 h
    obtain rfl := Node.expr.inj hyx
    obtain ⟨e, he, hx⟩ := List.mem_flatMap.1 hy
    exact ⟨s, List.mem_cons_self, e, he, hx⟩
  · obtain ⟨u, hu, hx⟩ := List.mem_flatMap.1 h
    obtain ⟨t, ht, e, he, hx⟩ := expr_of_mem_walk hx
    refine ⟨t, List.mem_cons_of_mem _ (List.mem_append_right _ ?_), e, he, hx⟩
    exact List.mem_flatMap.2 ⟨u, hu, ht⟩
termination_by sizeOf s
decreasing_by exact sizeOf_lt_of_mem_body hu

/-- **Every expression of a template** occurs in a role. -/
theorem occursIn_of_mem_walkAll (h : .expr x ∈ walkAll body) : ∃ r, OccursIn body r x := by
  obtain ⟨u, hu, hx⟩ := List.mem_flatMap.1 h
  obtain ⟨s, hs, e, he, hx⟩ := Stmt.expr_of_mem_walk hx
  have hplaced : e ∈ s.placed.map Prod.snd := s.placed_snd.symm ▸ he
  obtain ⟨p, hp, rfl⟩ := List.mem_map.1 hplaced
  obtain ⟨r, hr⟩ := Expr.Occurs.walk .here hx
  exact ⟨r, s, List.mem_flatMap.2 ⟨u, hu, hs⟩, p, hp, hr⟩

theorem Stmt.Sound.formed (h : s.Sound) : s.Formed := by
  cases h with
  | mk formed _ _ => exact formed

theorem Stmt.Sound.placed (h : s.Sound) : ∀ p ∈ s.placed, p.2.Sound p.1 := by
  cases h with
  | mk _ placed _ => exact placed

/-- **The statements in a sound statement** are sound. -/
theorem Stmt.Sound.walk (h : s.Sound) (ht : .stmt t ∈ s.walk) : t.Sound := by
  induction h with
  | @mk s formed placed body ih =>
      rw [Stmt.walk_eq] at ht
      rcases List.mem_cons.1 ht with ht | ht
      · obtain rfl := Node.stmt.inj ht
        exact .mk formed placed body
      rcases List.mem_append.1 ht with ht | ht
      · obtain ⟨y, _, hy⟩ := List.mem_map.1 ht
        nomatch hy
      · obtain ⟨u, hu, ht⟩ := List.mem_flatMap.1 ht
        exact ih u hu ht

theorem SoundBody.walk (h : SoundBody body) (ht : .stmt t ∈ walkAll body) : t.Sound := by
  obtain ⟨s, hs, ht⟩ := List.mem_flatMap.1 ht
  exact (h s hs).walk ht

/-- **Every occurrence** in a sound tree is sound. -/
theorem SoundBody.occurs (h : SoundBody body) (hx : OccursIn body r x) : x.Sound r := by
  obtain ⟨s, hs, p, hp, hx⟩ := hx
  exact ((h.walk hs).placed p hp).occurs hx

/-! ### Uses of names -/

/-- **A target**: a name, or a tuple. -/
def Expr.IsTarget : Expr → Prop
  | name .. | internalName .. | tuple .. => True
  | _ => False

/-- The roles of targets. -/
def Role.IsTarget : Role → Prop
  | assigned | target _ | parameter => True
  | shown | called | blockFilter | subscript | entry | subject | ordinary => False

/-- What is admitted as a target is one. -/
theorem Role.Admits.isTarget (h : r.Admits e) (hr : r.IsTarget) : e.IsTarget := by
  cases r with
  | assigned | target =>
      have hassign : e.isAssignable = true := h
      cases e with
      | name | internalName | tuple => trivial
      | const | templateData | list | dict | member | item | slice | call | filter | test
      | conditional | and | or | not | neg | pos | binary | concat | compare => nomatch hassign
  | parameter =>
      obtain ⟨name, use, line, rfl⟩ := h
      trivial
  | shown | called | blockFilter | subscript | entry | subject | ordinary => exact hr.elim

/-- **The items of a target** are targets of the same use. -/
theorem Role.Admits.item_of_target (h : r.Admits e) (hr : r.IsTarget) :
    ∀ p ∈ e.placed r, p.1.IsTarget ∧ p.1.use = r.use := by
  have htarget := h.isTarget hr
  cases e with
  | name | internalName => exact nofun
  | tuple items =>
      intro p hp
      obtain ⟨x, _, rfl⟩ := List.mem_map.1 hp
      cases r with
      | assigned | target => exact ⟨trivial, rfl⟩
      | parameter =>
          obtain ⟨name, use, line, hname⟩ := h
          nomatch hname
      | shown | called | blockFilter | subscript | entry | subject | ordinary => exact hr.elim
  | const | templateData | list | dict | member | item | slice | call | filter | test | conditional
  | and | or | not | neg | pos | binary | concat | compare => exact htarget.elim

/-- Outside of targets all names are read. -/
theorem Role.use_eq_load (hr : ¬ r.IsTarget) : r.use = .load := by
  cases r with
  | assigned | target | parameter => exact absurd trivial hr
  | shown | called | blockFilter | subscript | entry | subject | ordinary => rfl

/-- **Nothing below** what is no target is a target. -/
theorem Expr.placed_of_not_isTarget (hr : ¬ r.IsTarget) : ∀ p ∈ e.placed r, ¬ p.1.IsTarget := by
  have hall (ρ : Role) (hρ : ¬ ρ.IsTarget) (es : List Expr) :
      ∀ p ∈ es.map (ρ, ·), ¬ p.1.IsTarget := by
    intro p hp
    obtain ⟨x, _, rfl⟩ := List.mem_map.1 hp
    exact hρ
  have hordinary := hall .ordinary id
  cases e with
  | tuple items =>
      refine hall _ ?_ items
      cases r with
      | assigned | target | parameter => exact absurd trivial hr
      | subscript =>
          show ¬ (ite _ _ _ : Role).IsTarget
          split
          · exact id
          · exact id
      | shown | called | blockFilter | entry | subject | ordinary => exact id
  | item node arg => exact List.forall_mem_cons.2 ⟨id, List.forall_mem_singleton.2 id⟩
  | filter node name args =>
      refine List.forall_mem_append.2 ⟨hall _ ?_ _, hordinary _⟩
      cases r <;> exact id
  | compare e operands =>
      refine List.forall_mem_cons.2 ⟨?_, hordinary _⟩
      show ¬ (Role.ofChain operands).IsTarget
      unfold Role.ofChain
      split
      · exact id
      · exact id
  | const | templateData | name | internalName | list | dict | member | slice | call | test
  | conditional | and | or | not | neg | pos | binary | concat => exact hordinary _

/-- **The names below a sound expression** have the use of its role, and a target is made of targets
only. -/
theorem Expr.Sound.walk (h : e.Sound r) (hx : x ∈ e.walk) :
    x.UsedAs r.use ∧ (r.IsTarget → x.IsTarget) := by
  induction h with
  | @mk r e fits placed ih =>
      rw [walk_eq] at hx
      rcases List.mem_cons.1 hx with rfl | hx
      · exact ⟨fits.used, fits.admitted.isTarget⟩
      · obtain ⟨c, hc, hx⟩ := List.mem_flatMap.1 hx
        have hplaced : c ∈ (e.placed r).map Prod.snd := (placed_snd r e).symm ▸ hc
        obtain ⟨p, hp, rfl⟩ := List.mem_map.1 hplaced
        obtain ⟨hused, htarget⟩ := ih p hp hx
        by_cases hr : r.IsTarget
        · obtain ⟨hitem, huse⟩ := fits.admitted.item_of_target hr p hp
          exact ⟨huse ▸ hused, fun _ => htarget hitem⟩
        · have hnone := placed_of_not_isTarget hr p hp
          rw [Role.use_eq_load hr, ← Role.use_eq_load hnone]
          exact ⟨hused, fun hr' => absurd hr' hr⟩

/-! ### Uses of expressions -/

namespace Stmt

/-- **What a statement writes to.** -/
def stored : Stmt → List Expr
  | forLoop target .. | assign target .. | assignBlock target .. => [target]
  | _ => []

/-- **What a statement binds** for its body. -/
def bound : Stmt → List Expr
  | withBlock targets .. => targets
  | macroBlock _ params .. | callBlock _ params .. => params
  | _ => []

/-- **What a statement reads.** -/
def read : Stmt → List Expr
  | forLoop _ iter _ _ test _ _ => iter :: test.toList
  | withBlock _ values _ _ => values
  | macroBlock _ _ defaults _ _ => defaults
  | callBlock call _ defaults _ _ => call :: defaults
  | assign _ value _ => [value]
  | assignBlock .. => []
  | s => s.exprs

/-- Each expression of a statement is written to, bound or read. -/
theorem exprs_perm (s : Stmt) : s.exprs.Perm (s.stored ++ s.bound ++ s.read) := by
  cases s with
  | callBlock call params defaults => exact List.perm_middle.symm
  | output | extendsTemplate | forLoop | ifThen | breakLoop | continueLoop | withBlock | scope
  | optionBlock | block | includeTemplate | sectionTemplate | importTemplate | importNames
  | macroBlock | filterBlock | assign | assignBlock | expr => exact .refl _

theorem placed_of_stored (h : e ∈ s.stored) :
    ∃ r, (r, e) ∈ s.placed ∧ r.IsTarget ∧ r.use = .store := by
  cases s with
  | forLoop | assignBlock =>
      obtain rfl := List.mem_singleton.1 h
      exact ⟨.target .store, List.mem_cons_self, trivial, rfl⟩
  | assign =>
      obtain rfl := List.mem_singleton.1 h
      exact ⟨.assigned, List.mem_cons_self, trivial, rfl⟩
  | output | extendsTemplate | ifThen | breakLoop | continueLoop | withBlock | scope | optionBlock
  | block | includeTemplate | sectionTemplate | importTemplate | importNames | macroBlock
  | callBlock | filterBlock | expr => nomatch h

theorem placed_of_bound (h : e ∈ s.bound) :
    ∃ r, (r, e) ∈ s.placed ∧ r.IsTarget ∧ r.use = .param := by
  cases s with
  | withBlock =>
      exact ⟨.target .param, List.mem_append_left _ (List.mem_map_of_mem h), trivial, rfl⟩
  | macroBlock =>
      exact ⟨.parameter, List.mem_append_left _ (List.mem_map_of_mem h), trivial, rfl⟩
  | callBlock =>
      refine ⟨.parameter, List.mem_cons_of_mem _ ?_, trivial, rfl⟩
      exact List.mem_append_left _ (List.mem_map_of_mem h)
  | output | extendsTemplate | forLoop | ifThen | breakLoop | continueLoop | scope | optionBlock
  | block | includeTemplate | sectionTemplate | importTemplate | importNames | filterBlock | assign
  | assignBlock | expr => nomatch h

theorem placed_of_read (h : e ∈ s.read) : ∃ r, (r, e) ∈ s.placed ∧ r.use = .load := by
  cases s with
  | output => exact ⟨.shown, List.mem_map_of_mem h, rfl⟩
  | forLoop => exact ⟨.ordinary, List.mem_cons_of_mem _ (List.mem_map_of_mem h), rfl⟩
  | withBlock | macroBlock =>
      exact ⟨.ordinary, List.mem_append_right _ (List.mem_map_of_mem h), rfl⟩
  | callBlock =>
      rcases List.mem_cons.1 h with rfl | h
      · exact ⟨.called, List.mem_cons_self, rfl⟩
      · refine ⟨.ordinary, List.mem_cons_of_mem _ ?_, rfl⟩
        exact List.mem_append_right _ (List.mem_map_of_mem h)
  | filterBlock =>
      obtain rfl := List.mem_singleton.1 h
      exact ⟨.blockFilter, List.mem_cons_self, rfl⟩
  | assign =>
      obtain rfl := List.mem_singleton.1 h
      exact ⟨.ordinary, List.mem_cons_of_mem _ List.mem_cons_self, rfl⟩
  | assignBlock => nomatch h
  | extendsTemplate | ifThen | breakLoop | continueLoop | scope | optionBlock | block
  | includeTemplate | sectionTemplate | importTemplate | importNames | expr =>
      exact ⟨.ordinary, List.mem_map_of_mem h, rfl⟩

end Stmt

/-! ### Templates -/

/-- **The tree of a template** is sound. -/
theorem sound_of_template (hext : ∀ x ∈ env.extensions, x.Known) {source : String}
    {name filename : Option String} (h : env.parseTemplate source name filename = .ok body) :
    SoundBody body := by
  obtain ⟨tokens, -, h⟩ := parseTemplate_eq_ok.1 h
  obtain ⟨t, hbody⟩ := parseStream_eq_ok.1 h
  exact yields_body (sound_grammar hext) none _ _ _ hbody

/-- **Uses of names.** Targets of loops and assignments are names and tuples that are written, those
of scopes and parameters are names and tuples that are bound, and all other names and tuples are
read. No name is that of a constant. -/
theorem contexts_of_template (hext : ∀ x ∈ env.extensions, x.Known) {source : String}
    {name filename : Option String} (h : env.parseTemplate source name filename = .ok body) :
    (∀ s, .stmt s ∈ walkAll body →
      (∀ e ∈ s.stored, ∀ x ∈ e.walk, x.IsTarget ∧ x.UsedAs .store) ∧
      (∀ e ∈ s.bound, ∀ x ∈ e.walk, x.IsTarget ∧ x.UsedAs .param) ∧
      (∀ e ∈ s.read, ∀ x ∈ e.walk, x.UsedAs .load)) ∧
    ∀ n use line, .expr (.name n use line) ∈ walkAll body → n ∉ Expr.constantNames := by
  have hsound := sound_of_template hext h
  constructor
  · intro s hs
    have hplaced := (hsound.walk hs).placed
    refine ⟨fun e he x hx => ?_, fun e he x hx => ?_, fun e he x hx => ?_⟩
    · obtain ⟨r, hr, htarget, huse⟩ := Stmt.placed_of_stored he
      obtain ⟨hused, hitem⟩ := (hplaced _ hr).walk hx
      exact ⟨hitem htarget, huse ▸ hused⟩
    · obtain ⟨r, hr, htarget, huse⟩ := Stmt.placed_of_bound he
      obtain ⟨hused, hitem⟩ := (hplaced _ hr).walk hx
      exact ⟨hitem htarget, huse ▸ hused⟩
    · obtain ⟨r, hr, huse⟩ := Stmt.placed_of_read he
      exact huse ▸ ((hplaced _ hr).walk hx).1
  · intro n use line hmem
    obtain ⟨r, hr⟩ := occursIn_of_mem_walkAll hmem
    exact (hsound.occurs hr).fits.used.2

/-- The target of an assignment is a tuple of names in a tuple. -/
theorem contexts_of_template_set :
    let env : Environment := {}
    let source := "\x7b%set a,(b,c)=d%\x7d"
    ∃ body, env.parseTemplate source none none = .ok body ∧
      ∀ s, .stmt s ∈ walkAll body → ∀ e ∈ s.stored, ∀ x ∈ e.walk, x.IsTarget ∧ x.UsedAs .store := by
  intro env source
  let tokens : List Token := [⟨.mark .blockBegin, 1, ⟨0, 2⟩⟩, ⟨.name "set", 1, ⟨2, 5⟩⟩,
    ⟨.name "a", 1, ⟨6, 7⟩⟩, ⟨.symbol .comma, 1, ⟨7, 8⟩⟩, ⟨.symbol .lParen, 1, ⟨8, 9⟩⟩,
    ⟨.name "b", 1, ⟨9, 10⟩⟩, ⟨.symbol .comma, 1, ⟨10, 11⟩⟩, ⟨.name "c", 1, ⟨11, 12⟩⟩,
    ⟨.symbol .rParen, 1, ⟨12, 13⟩⟩, ⟨.symbol .assign, 1, ⟨13, 14⟩⟩, ⟨.name "d", 1, ⟨14, 15⟩⟩,
    ⟨.mark .blockEnd, 1, ⟨15, 17⟩⟩, ⟨.mark .endOfTemplate, 1, ⟨17, 17⟩⟩]
  have htokens : Token.ofTemplate env.delimiters source = .ok tokens := by cbv
  have hsome : (env.parseStream (.ofTokens tokens none none)).toOption.isSome = true := by cbv
  have hparse := parseTemplate_eq none none htokens
  cases h : env.parseStream (.ofTokens tokens none none) with
  | error e =>
      rw [h] at hsome
      cases hsome
  | ok body =>
      have hext : ∀ x ∈ env.extensions, x.Known := List.forall_mem_nil _
      obtain ⟨huses, -⟩ := contexts_of_template hext (hparse.trans h)
      exact ⟨body, hparse.trans h, fun s hs => (huses s hs).1⟩

/-- **Shapes of nodes.** Every expression is well-formed for its role and what the role admits, and
every statement is well-formed. -/
theorem roles_of_template (hext : ∀ x ∈ env.extensions, x.Known) {source : String}
    {name filename : Option String} (h : env.parseTemplate source name filename = .ok body) :
    (∀ r x, OccursIn body r x → x.Formed r ∧ r.Admits x) ∧
    ∀ s, .stmt s ∈ walkAll body → s.Formed := by
  have hsound := sound_of_template hext h
  constructor
  · intro r x hx
    have hfits := (hsound.occurs hx).fits
    exact ⟨hfits.formed, hfits.admitted⟩
  · exact fun s hs => (hsound.walk hs).formed

/-- The subject of a case distinction has a name of its own in both of its roles. -/
theorem roles_of_template_case :
    let env : Environment := ({} : Environment).withExtension .case
    let source := "\x7b%case x%\x7d\x7b%when 1%\x7da\x7b%endcase%\x7d"
    ∃ body, env.parseTemplate source none none = .ok body ∧
      ∀ r x, OccursIn body r x → x.Formed r ∧ r.Admits x := by
  intro env source
  let tokens : List Token := [⟨.mark .blockBegin, 1, ⟨0, 2⟩⟩, ⟨.name "case", 1, ⟨2, 6⟩⟩,
    ⟨.name "x", 1, ⟨7, 8⟩⟩, ⟨.mark .blockEnd, 1, ⟨8, 10⟩⟩, ⟨.mark .blockBegin, 1, ⟨10, 12⟩⟩,
    ⟨.name "when", 1, ⟨12, 16⟩⟩, ⟨.integer 1, 1, ⟨17, 18⟩⟩, ⟨.mark .blockEnd, 1, ⟨18, 20⟩⟩,
    ⟨.data "a", 1, ⟨20, 21⟩⟩, ⟨.mark .blockBegin, 1, ⟨21, 23⟩⟩, ⟨.name "endcase", 1, ⟨23, 30⟩⟩,
    ⟨.mark .blockEnd, 1, ⟨30, 32⟩⟩, ⟨.mark .endOfTemplate, 1, ⟨32, 32⟩⟩]
  have htokens : Token.ofTemplate env.delimiters source = .ok tokens := by cbv
  have hsome : (env.parseStream (.ofTokens tokens none none)).toOption.isSome = true := by cbv
  have hparse := parseTemplate_eq none none htokens
  cases h : env.parseStream (.ofTokens tokens none none) with
  | error e =>
      rw [h] at hsome
      cases hsome
  | ok body =>
      have hknown : ∀ x ∈ env.extensions, x.Known := by
        intro x hx
        rw [List.mem_singleton.1 hx]
        exact .case
      obtain ⟨hroles, -⟩ := roles_of_template hknown (hparse.trans h)
      exact ⟨body, hparse.trans h, hroles⟩

end LiquidTemplate
