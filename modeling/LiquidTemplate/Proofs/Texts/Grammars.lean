import LiquidTemplate.Extension.Do
import LiquidTemplate.Extension.Shout
import LiquidTemplate.Grammar.Statement
import LiquidTemplate.Proofs.Texts.Cases

/-!
# Texts that grammars tell

The grammar of an environment tells the texts of all statements if its extensions do.

* `Extension.Known`: the extensions that are known to.
* `tells_known`, `tells_statement`: the tag of an extension, and any tag.
* `faithful_below`: the bounded grammars, by induction on the bound.
* `faithful_grammar`: the grammar of an environment.
-/

namespace LiquidTemplate

open LiquidTemplate.Parser LiquidTemplate.Grammar

variable {dropping : Bool} {drops : List Bool} {env : Environment} {g : Grammar} {s : ParserState}
  {tag : String}

/-! ### Extensions -/

/-- **Known extensions.** A shout can also have tags that other extensions or all environments
have. -/
inductive Extension.Known : Extension → Prop where
  | doExpr : Known .doExpr
  | case : Known .case
  | shout {tags : List String} (h : ∀ tag ∈ tags, tag ∈ ["shout", "if", "do"]) : Known (.shout tags)

/-- All of them at once. -/
theorem known_extensions : ∀ x ∈ [Extension.case, .doExpr, .shout ["shout"]], x.Known := by
  simp only [List.forall_mem_cons, List.not_mem_nil, false_implies, implies_true, and_true]
  exact ⟨.case, .doExpr, .shout (by decide)⟩

theorem tells_do (hg : g.Hushed) (hn : Neutral dropping tag)
    (hk : s.stream.current.kind = .name tag) :
    Tells dropping (parseDo g) s ⟨true, drops⟩ ⟨false, drops⟩ Expansion.Says := by
  refine Tells.enter hn hk ?_
  refine Tells.quiet (quiet_anyTuple hg _) fun e t he => Tells.pure ?_
  show textsOf [_] = []
  rw [textsOf_singleton]
  exact Stmt.texts_eq_body (textless_one he)

theorem tells_shout (hg : g.Hushed) (hn : Neutral dropping tag)
    (hk : s.stream.current.kind = .name tag) :
    Tells dropping (parseShout g) s ⟨true, drops⟩ ⟨false, drops⟩ Expansion.Says := by
  refine Tells.enter hn hk ?_
  refine Tells.quiet (quiet_expression hg true true _) fun e t he => Tells.pure ?_
  have hfilter (line : Nat) : (Expr.filter (some e) "upcase" {} line).Textless :=
    .of_children rfl (textless_append (textless_toList (textless_some he)) nofun)
  show textsOf [_] = []
  rw [textsOf_singleton]
  exact Stmt.texts_eq_body (textless_one (hfilter _))

/-- **The tag of a known extension**, which is none of every environment. Only a case distinction
drops text. -/
theorem tells_known {x : Extension} (hg : g.Faithful dropping) (hx : x.Known)
    (hcase : x = .case → dropping = true) (htag : tag ∈ x.tags) (hnew : builtin? g tag = none)
    (hk : s.stream.current.kind = .name tag) :
    Tells dropping (x.parse g) s ⟨true, drops⟩ ⟨false, drops⟩ Expansion.Says := by
  cases hx with
  | doExpr =>
      obtain rfl := List.mem_singleton.1 htag
      exact tells_do hg.toHushed (fun _ => rfl) hk
  | case =>
      obtain rfl := hcase rfl
      obtain rfl := List.mem_singleton.1 htag
      exact tells_case hg hk
  | shout h =>
      have hneutral : Neutral dropping tag := by
        rcases List.mem_cons.1 (h tag htag) with rfl | htag
        · exact fun _ => rfl
        rcases List.mem_cons.1 htag with rfl | htag
        · nomatch hnew
        · obtain rfl := List.mem_singleton.1 htag
          exact fun _ => rfl
      exact tells_shout hg.toHushed hneutral hk

/-! ### Statements -/

/-- **Environments whose texts are told**: all of their extensions are known, and only where text is
dropped is one of them for case distinctions. -/
structure Environment.Told (dropping : Bool) (env : Environment) : Prop where
  known : ∀ x ∈ env.extensions, x.Known
  drops : .case ∈ env.extensions → dropping = true

theorem Environment.extension?_mem {x : Extension} (h : env.extension? tag = some x) :
    x ∈ env.extensions ∧ tag ∈ x.tags := by
  have htag := List.find?_some h
  exact ⟨List.mem_reverse.1 (List.mem_of_find?_eq_some h), List.contains_iff_mem.1 htag⟩

/-- **Any tag.** -/
theorem tells_tag (drops : List Bool) (henv : env.Told dropping) (hg : g.Faithful dropping)
    {p : Parser Expansion} (h : tag? env g tag = some p) (hk : s.stream.current.kind = .name tag) :
    Tells dropping p s ⟨true, drops⟩ ⟨false, drops⟩ Expansion.Says := by
  unfold tag? at h
  split at h
  · next q hq =>
      obtain rfl := Option.some.inj h
      intro hw x t hx
      obtain ⟨stmt, hstmt, rfl⟩ := map_eq_ok.1 hx
      obtain ⟨hsuf, texts, htexts, hsays⟩ := tells_builtin hg hq s drops hk hw stmt t hstmt
      exact ⟨hsuf, texts, htexts, (textsOf_singleton stmt).trans hsays⟩
  · next hnew =>
      obtain ⟨x, hx, rfl⟩ := Option.map_eq_some_iff.1 h
      obtain ⟨hmem, htag⟩ := Environment.extension?_mem hx
      exact tells_known hg (henv.known x hmem) (fun hcase => henv.drops (hcase ▸ hmem)) htag hnew hk

theorem tells_statement (henv : env.Told dropping) (hg : g.Faithful dropping) :
    Tells dropping (parseStatement env g) s ⟨true, drops⟩ ⟨false, drops⟩ Expansion.Says := by
  refine Tells.see ?_
  cases hname : s.stream.current.name? with
  | none => exact fun _ _ _ h => absurd h (failAt_ne_ok _ _)
  | some tag =>
      dsimp only
      cases hp : tag? env g tag with
      | none => exact fun _ _ _ h => nomatch h
      | some p =>
          intro hw x t h
          obtain ⟨u, v, hu, hv, h⟩ := inTag_eq_ok h
          have hk : u.stream.current.kind = .name tag := by
            rw [hu]
            exact Token.name?_eq_some_iff.1 hname
          have hw' : u.Worded := by
            rw [ParserState.Worded, hu]
            exact hw
          have htold := tells_tag drops henv hg hp hk hw' x v h
          rw [hu, hv] at htold
          exact htold

/-! ### Grammars -/

theorem guarded_eq_ok {α : Type} {n : Nat} {p : Nat → Parser α} {x : α} {t : ParserState}
    (h : guarded n (fun s _ => p s.weight s) s = .ok x t) :
    s.weight < n ∧ p s.weight s = .ok x t := by
  unfold guarded at h
  split at h
  · next hlt => exact ⟨hlt, h⟩
  · exact absurd h (fail_ne_ok _)

/-- **The bounded grammars** tell their texts, since their references are to those of smaller
bounds. -/
theorem faithful_below (henv : env.Told dropping) (n : Nat) : (below env n).Faithful dropping := by
  induction n using Nat.strongRecOn with
  | _ n ih =>
      have hquiet {α : Type} {p : Nat → Parser α} {post : α → Prop}
          (h : ∀ j, j < n → ∀ s, Quiet (p j) s post) (s : ParserState) :
          Quiet (guarded n fun s _ => p s.weight s) s post := by
        intro x t hx
        obtain ⟨hlt, hx⟩ := guarded_eq_ok hx
        exact h _ hlt s x t hx
      refine { expression := ?_, negation := ?_, signed := ?_, group := ?_, statement := ?_,
               branch := ?_ }
      · intro conditional filters s
        rw [below_expression]
        exact hquiet (p := fun j => parseExpression (below env j) conditional filters)
          (fun j hj => quiet_expression (ih j hj).toHushed conditional filters) s
      · intro filters s
        rw [below_negation]
        exact hquiet (p := fun j => parseNegation (below env j) filters)
          (fun j hj => quiet_negation (ih j hj).toHushed filters) s
      · intro s
        rw [below_signed]
        exact hquiet (p := fun j => parseSigned (below env j) false)
          (fun j hj => quiet_signed (ih j hj).toHushed false) s
      · intro s
        rw [below_group]
        exact hquiet (p := fun j => parseTuple (below env j) (.expression true) [] true)
          (fun j hj => quiet_tuple (ih j hj).toHushed _ _ _) s
      · intro s drops hw x t h
        rw [below_statement] at h
        obtain ⟨hlt, h⟩ := guarded_eq_ok (p := fun j => parseStatement env (below env j)) h
        exact tells_statement henv (ih _ hlt) hw x t h
      · intro line tag s drops htag hw x t h
        rw [below_branch] at h
        obtain ⟨hlt, h⟩ := guarded_eq_ok (p := fun j => parseBranch (below env j) line tag false) h
        exact tells_branch (ih _ hlt) line false htag hw x t h

/-- **The grammar of an environment** tells its texts. -/
theorem faithful_grammar (henv : env.Told dropping) : env.grammar.Faithful dropping := by
  have hbelow (n : Nat) := faithful_below henv n
  refine { expression := ?_, negation := ?_, signed := ?_, group := ?_, statement := ?_,
           branch := ?_ }
  · exact fun conditional filters s x t h =>
      quiet_expression (hbelow _).toHushed conditional filters s x t h
  · exact fun filters s x t h => quiet_negation (hbelow _).toHushed filters s x t h
  · exact fun s x t h => quiet_signed (hbelow _).toHushed false s x t h
  · exact fun s x t h => quiet_tuple (hbelow _).toHushed _ _ _ s x t h
  · exact fun s drops hw x t h => tells_statement henv (hbelow _) hw x t h
  · exact fun line tag s drops htag hw x t h => tells_branch (hbelow _) line false htag hw x t h

end LiquidTemplate
