import LiquidTemplate.Tree.Walk

/-!
# Roles of expressions

Where an expression stands in a tree decides what it may be. A slice is good for a subscript only,
a name that is written is marked as such, and a filter can be without input only where the body of a
filter block is the input.

* `Role`: the places of a tree where an expression can stand.
* `Expr.placed`, `Stmt.placed`: the subexpressions of a node with their roles.
* `Expr.Occurs`, `OccursIn`: all expressions of a tree with their roles.
* `Expr.Formed`, `Role.Admits`, `Expr.UsedAs`: what fits a role.
* `Expr.Sound`, `Stmt.Sound`: trees in which everything fits its role.
-/

namespace LiquidTemplate

/-! ### Roles -/

/-- **Role** of an expression in a tree. -/
inductive Role where
  /-- Shown by an output statement. -/
  | shown
  /-- The target of an assignment of a value. -/
  | assigned
  /-- Another target, or an item of a target, whose names have the given use. -/
  | target (use : Context)
  /-- A parameter of a macro or of a call block. -/
  | parameter
  /-- The call of a call block. -/
  | called
  /-- The filter of a filter block, or the input of such a filter. -/
  | blockFilter
  /-- The argument of an item. -/
  | subscript
  /-- An item of a tuple of at least two that is such an argument. -/
  | entry
  /-- What a chain of a single test for equality compares. -/
  | subject
  | ordinary
deriving DecidableEq

namespace Role

/-- The use of the names in a role. -/
def use : Role → Context
  | assigned => .store
  | target use => use
  | parameter => .param
  | shown | called | blockFilter | subscript | entry | subject | ordinary => .load

/-- The role of the items of a tuple in a role. -/
def ofItem (items : List Expr) : Role → Role
  | assigned => target .store
  | target use => target use
  | subscript => if 2 ≤ items.length then entry else ordinary
  | shown | parameter | called | blockFilter | entry | subject | ordinary => ordinary

/-- The role of the input of a filter in a role. -/
def ofInput : Role → Role
  | blockFilter => blockFilter
  | shown | assigned | target _ | parameter | called | subscript | entry | subject | ordinary =>
    ordinary

/-- The role of what a chain of comparisons begins with. -/
def ofChain : List (Operand Expr) → Role
  | [⟨.eq, _⟩] => subject
  | _ => ordinary

end Role

/-- **Subexpressions with their roles**, for a node in the role `r`. -/
def Expr.placed (r : Role) : Expr → List (Role × Expr)
  | tuple items _ _ => items.map (r.ofItem items, ·)
  | item node arg _ => [(.ordinary, node), (.subscript, arg)]
  | filter node _ args _ => node.toList.map (r.ofInput, ·) ++ args.values.map (.ordinary, ·)
  | compare e operands _ => (.ofChain operands, e) :: (operands.map Operand.expr).map (.ordinary, ·)
  | e => e.children.map (.ordinary, ·)

/-- **Expressions of a statement with their roles.** -/
def Stmt.placed : Stmt → List (Role × Expr)
  | output nodes _ => nodes.map (.shown, ·)
  | forLoop target iter _ _ test _ _ =>
    (.target .store, target) :: (iter :: test.toList).map (.ordinary, ·)
  | withBlock targets values _ _ =>
    targets.map (.target .param, ·) ++ values.map (.ordinary, ·)
  | macroBlock _ params defaults _ _ => params.map (.parameter, ·) ++ defaults.map (.ordinary, ·)
  | callBlock call params defaults _ _ =>
    (.called, call) :: (params.map (.parameter, ·) ++ defaults.map (.ordinary, ·))
  | filterBlock filter _ _ => [(.blockFilter, filter)]
  | assign target value _ => [(.assigned, target), (.ordinary, value)]
  | assignBlock target _ _ => [(.target .store, target)]
  | s => s.exprs.map (.ordinary, ·)

/-- Every subexpression has one role. -/
theorem Expr.placed_snd (r : Role) (e : Expr) : (e.placed r).map Prod.snd = e.children := by
  have hplain (ρ : Role) (es : List Expr) : (es.map (ρ, ·)).map Prod.snd = es := by
    rw [List.map_map]
    exact List.map_id es
  unfold placed
  split
  · exact hplain _ _
  · rfl
  · rw [List.map_append, hplain, hplain]
    rfl
  · rw [List.map_cons, hplain]
    rfl
  · exact hplain _ _

theorem Stmt.placed_snd (s : Stmt) : s.placed.map Prod.snd = s.exprs := by
  have hplain (ρ : Role) (es : List Expr) : (es.map (ρ, ·)).map Prod.snd = es := by
    rw [List.map_map]
    exact List.map_id es
  cases s <;> simp only [placed, exprs, List.map_append, List.map_cons, List.map_nil, hplain]

/-- **An expression in a role below another one.** -/
inductive Expr.Occurs (r : Role) (e : Expr) : Role → Expr → Prop where
  | here : Occurs r e r e
  | child {ρ ρ' : Role} {x y : Expr} (h : Occurs r e ρ x) (hy : (ρ', y) ∈ x.placed ρ) :
      Occurs r e ρ' y

/-- **An expression in a role of a template.** -/
def OccursIn (body : List Stmt) (r : Role) (x : Expr) : Prop :=
  ∃ s, .stmt s ∈ walkAll body ∧ ∃ p ∈ s.placed, p.2.Occurs p.1 r x

/-! ### What fits a role -/

/-- **Well-formed for a role.** -/
def Expr.Formed (r : Role) : Expr → Prop
  | compare _ operands _ => operands ≠ []
  | concat nodes _ => 2 ≤ nodes.length
  | slice .. => r = .subscript ∨ r = .entry
  | templateData data _ => r = .shown ∧ data ≠ ""
  | filter none _ _ _ => r = .blockFilter
  | internalName .. => r = .assigned ∨ r = .subject
  | _ => True

/-- **What a role admits.** -/
def Role.Admits : Role → Expr → Prop
  | called, e => ∃ node args line, e = .call node args line
  | blockFilter, e => ∃ node name args line, e = .filter node name args line
  | parameter, e => ∃ name use line, e = .name name use line
  | assigned, e | target _, e => e.isAssignable = true
  | shown, _ | subscript, _ | entry, _ | subject, _ | ordinary, _ => True

/-- **Use of a node.** No name is that of a constant. -/
def Expr.UsedAs (use : Context) : Expr → Prop
  | name n u _ => u = use ∧ n ∉ constantNames
  | tuple _ u _ => u = use
  | _ => True

/-- **Well-formed statements.** -/
def Stmt.Formed : Stmt → Prop
  | withBlock targets values _ _ => values.length = targets.length
  | macroBlock _ params defaults _ _ | callBlock _ params defaults _ _ =>
    defaults.length ≤ params.length
  | importNames _ names _ _ => ∀ n ∈ names, n.name.startsWith "_" = false
  | _ => True

/-- **A node that fits its role.** -/
structure Expr.Fits (r : Role) (e : Expr) : Prop where
  formed : e.Formed r
  admitted : r.Admits e
  used : e.UsedAs r.use

/-! ### Sound trees -/

/-- **A sound expression** and all that is below it fit their roles. -/
inductive Expr.Sound : Role → Expr → Prop where
  | mk {r : Role} {e : Expr} (fits : e.Fits r) (placed : ∀ p ∈ e.placed r, Sound p.1 p.2) :
      Sound r e

/-- **A sound statement**: its expressions are, and so are its inner statements. -/
inductive Stmt.Sound : Stmt → Prop where
  | mk {s : Stmt} (formed : s.Formed) (placed : ∀ p ∈ s.placed, p.2.Sound p.1)
      (body : ∀ t ∈ s.body, Sound t) : Sound s

namespace Expr

variable {r ρ : Role} {e x : Expr}

theorem Sound.fits (h : e.Sound r) : e.Fits r := by
  cases h with
  | mk fits _ => exact fits

theorem Sound.placed (h : e.Sound r) : ∀ p ∈ e.placed r, p.2.Sound p.1 := by
  cases h with
  | mk _ placed => exact placed

/-- **Everything below** a sound expression is sound in its role. -/
theorem Sound.occurs (h : e.Sound r) (hx : e.Occurs r ρ x) : x.Sound ρ := by
  induction hx with
  | here => exact h
  | child _ hy ih => exact ih.placed _ hy

/-- **Everything that a walk meets** has a role. -/
theorem Occurs.walk {ρ : Role} {y : Expr} (hy : e.Occurs r ρ y) (hx : x ∈ y.walk) :
    ∃ ρ', e.Occurs r ρ' x := by
  rw [walk_eq] at hx
  rcases List.mem_cons.1 hx with rfl | hx
  · exact ⟨ρ, hy⟩
  · obtain ⟨c, hc, hx⟩ := List.mem_flatMap.1 hx
    have hplaced : c ∈ (y.placed ρ).map Prod.snd := (placed_snd ρ y).symm ▸ hc
    obtain ⟨⟨ρ', c⟩, hp, rfl⟩ := List.mem_map.1 hplaced
    exact walk (.child hy hp) hx
termination_by sizeOf y
decreasing_by exact sizeOf_lt_of_mem_children hc

/-! ### Changes of role -/

/-- Expressions in one role. -/
theorem sound_map {es : List Expr} (h : ∀ e ∈ es, e.Sound r) :
    ∀ p ∈ es.map (r, ·), p.2.Sound p.1 := by
  intro p hp
  obtain ⟨e, he, rfl⟩ := List.mem_map.1 hp
  exact h e he

theorem sound_option {o : Option Expr} (h : ∀ e ∈ o, e.Sound r) : ∀ e ∈ o.toList, e.Sound r :=
  fun e he => h e (Option.mem_toList.1 he)

/-- **A node without a role of its own** is sound if what is below it is. -/
theorem Sound.of_children (h : ∀ c ∈ e.children, c.Sound .ordinary)
    (hplaced : e.placed .ordinary = e.children.map (.ordinary, ·))
    (hformed : e.Formed .ordinary) (hused : e.UsedAs .load) :
    e.Sound .ordinary :=
  .mk ⟨hformed, trivial, hused⟩ (hplaced ▸ sound_map h)

/-- What is well-formed without a role of its own is well-formed in every role. -/
theorem Formed.of_ordinary (h : e.Formed .ordinary) : e.Formed r := by
  cases e with
  | slice => rcases h with h | h <;> nomatch h
  | templateData => nomatch h.1
  | filter node =>
      cases node with
      | none => nomatch h
      | some _ => trivial
  | internalName => rcases h with h | h <;> nomatch h
  | const | name | tuple | list | dict | member | item | call | test | conditional | and | or | not
  | neg | pos | binary | concat | compare => exact h

/-- A role that reads like an ordinary one. -/
theorem Sound.as (h : e.Sound .ordinary) (huse : r.use = .load) (hadmits : r.Admits e)
    (hplaced : e.placed r = e.placed .ordinary) : e.Sound r :=
  .mk ⟨h.fits.formed.of_ordinary, hadmits, huse ▸ h.fits.used⟩ (hplaced ▸ h.placed)

theorem Sound.shown (h : e.Sound .ordinary) : e.Sound .shown :=
  h.as rfl trivial (by cases e <;> rfl)

theorem Sound.entry (h : e.Sound .ordinary) : e.Sound .entry :=
  h.as rfl trivial (by cases e <;> rfl)

theorem Sound.subject (h : e.Sound .ordinary) : e.Sound .subject :=
  h.as rfl trivial (by cases e <;> rfl)

theorem Sound.called {node : Expr} {args : Arguments Expr} {line : Nat}
    (h : (Expr.call node args line).Sound .ordinary) : (Expr.call node args line).Sound .called :=
  h.as rfl ⟨node, args, line, rfl⟩ rfl

/-- What can be one of several subscripts can be the only one. -/
theorem Sound.subscript (h : e.Sound .entry) : e.Sound .subscript := by
  have hfits : e.Fits .subscript := by
    refine ⟨?_, trivial, h.fits.used⟩
    have hformed := h.fits.formed
    cases e with
    | slice => exact .inl rfl
    | templateData => nomatch hformed.1
    | filter node =>
        cases node with
        | none => nomatch hformed
        | some _ => trivial
    | internalName => rcases hformed with hformed | hformed <;> nomatch hformed
    | const | name | tuple | list | dict | member | item | call | test | conditional | and | or
    | not | neg | pos | binary | concat | compare => exact hformed
  refine .mk hfits ?_
  cases e with
  | tuple items =>
      have hitems : ∀ x ∈ items, x.Sound .ordinary :=
        fun x hx => h.placed (.ordinary, x) (List.mem_map_of_mem hx)
      show ∀ p ∈ items.map (ite _ _ _, ·), p.2.Sound p.1
      split
      · exact sound_map fun x hx => (hitems x hx).entry
      · exact sound_map hitems
  | const | templateData | name | internalName | list | dict | member | item | slice | call | filter
  | test | conditional | and | or | not | neg | pos | binary | concat | compare => exact h.placed

/-- **A subscript of several expressions.** -/
theorem sound_subscripts {es : List Expr} {line : Nat} (h : ∀ e ∈ es, e.Sound .entry)
    (hlength : es.length ≠ 1) : (tuple es .load line).Sound .subscript := by
  refine .mk ⟨trivial, trivial, rfl⟩ ?_
  have hrole : Role.subscript.ofItem es = .entry ∨ es = [] := by
    match es with
    | [] => exact .inr rfl
    | [_] => exact absurd rfl hlength
    | x :: y :: es =>
        have htwo : 2 ≤ (x :: y :: es).length := Nat.le_add_left 2 es.length
        exact .inl (by rw [Role.ofItem, if_pos htwo])
  rcases hrole with hrole | rfl
  · exact fun p hp => sound_map h p (hrole ▸ hp)
  · exact nofun

/-- **A filter** whose input has its role. Without an input it is the last one of a filter block. -/
theorem sound_filter {node : Option Expr} {name : String} {args : Arguments Expr} {line : Nat}
    (hr : r = .ordinary ∨ r = .blockFilter) (hnode : ∀ e ∈ node, e.Sound r)
    (hbare : node = none → r = .blockFilter) (hargs : ∀ e ∈ args.values, e.Sound .ordinary) :
    (filter node name args line).Sound r := by
  have hformed : (filter node name args line).Formed r := by
    cases node with
    | none => exact hbare rfl
    | some _ => trivial
  have hplaced (hinput : r.ofInput = r) :
      ∀ p ∈ (filter node name args line).placed r, p.2.Sound p.1 := by
    refine List.forall_mem_append.2 ⟨?_, sound_map hargs⟩
    rw [hinput]
    exact sound_map (sound_option hnode)
  rcases hr with rfl | rfl
  · exact .mk ⟨hformed, trivial, trivial⟩ (hplaced rfl)
  · exact .mk ⟨hformed, ⟨node, name, args, line, rfl⟩, trivial⟩ (hplaced rfl)

/-- **A target** is made of names and tuples, which all get the same use. -/
theorem Sound.target {e : Expr} (h : e.Sound .ordinary) (hassign : e.isAssignable = true)
    (use : Context) : (e.setContext use).Sound (.target use) := by
  match e with
  | name n c l => exact .mk ⟨trivial, hassign, rfl, h.fits.used.2⟩ nofun
  | tuple items c l =>
      rw [setContext, setContexts_eq_map]
      have hitems : ∀ x ∈ items, x.isAssignable = true := by
        rw [isAssignable, areAssignable_eq_all, List.all_eq_true] at hassign
        exact hassign
      have hassign' : (tuple (items.map (setContext use)) use l).isAssignable = true := by
        rw [isAssignable, areAssignable_eq_all, List.all_map, List.all_eq_true]
        exact fun x hx => (isAssignable_setContext use x).trans (hitems x hx)
      refine .mk ⟨trivial, hassign', rfl⟩ (sound_map fun y hy => ?_)
      obtain ⟨x, hx, rfl⟩ := List.mem_map.1 hy
      exact target (h.placed (.ordinary, x) (List.mem_map_of_mem hx)) (hitems x hx) use
  | internalName .. => rcases h.fits.formed with h | h <;> nomatch h
termination_by sizeOf e
decreasing_by
  have := List.sizeOf_lt_of_mem hx
  simp only [tuple.sizeOf_spec]
  omega

/-- The target of an assignment of a body can be that of an assignment of a value. -/
theorem Sound.assigned (h : e.Sound (.target .store)) : e.Sound .assigned := by
  have hassign := h.fits.admitted
  cases e with
  | name => exact .mk ⟨trivial, hassign, h.fits.used⟩ nofun
  | tuple => exact .mk ⟨trivial, hassign, h.fits.used⟩ h.placed
  | internalName => exact .mk ⟨.inl rfl, hassign, trivial⟩ nofun
  | const | templateData | list | dict | member | item | slice | call | filter | test | conditional
  | and | or | not | neg | pos | binary | concat | compare => exact absurd hassign Bool.false_ne_true

end Expr

end LiquidTemplate
