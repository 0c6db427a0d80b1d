import LiquidTemplate.Proofs.Conduct.InsideTags
import LiquidTemplate.Proofs.Nesting.Tags

/-!
# Only well-nested templates are accepted

Whatever the delimiters are, and whichever of the known extensions an environment has: the tags of a
template that it accepts are nested.

* `nests_branches`, `nests_case`: case distinctions.
* `nests_tag`, `nests_statement`: the tags of extensions, and any tag.
* `nesting_below`, `nesting_grammar`: the bounded grammars, and that of an environment.
* `nested_stream`, `opens_of_stream`: the tags of a stream.
* `nesting_of_template`: the tags of a template.
-/

namespace LiquidTemplate

open LiquidTemplate.Parser LiquidTemplate.Grammar

variable {α : Type} {env : Environment} {g : Grammar} {s t : ParserState} {tag : String}
  {e : TagHead} {x y : List CaseBranch × List Stmt}

/-! ### Case distinctions -/

/-- The head before a name that is known. -/
theorem name_of_tagHead? (he : tagHead? s.stream.tokens = some e)
    (hk : s.stream.current.kind = .name tag) : e.name = tag := by
  have hname := (tagHead?_eq_some_iff.1 he).1
  rw [hk] at hname
  exact (Token.Kind.name.inj hname).symm

/-- A head of a tag behind a branch stands before the name of that tag. -/
theorem branchTag_of_tagHead? (hname : e.name ∈ branchTags)
    (he : tagHead? s.stream.tokens = some e) :
    ∃ tag ∈ branchTags, s.stream.current.kind = .name tag :=
  ⟨e.name, hname, (tagHead?_eq_some_iff.1 he).1⟩

/-- **One branch**, from behind its `when` up to the name of the next tag. -/
theorem nested_caseBranch (hg : g.Nesting) {line : Nat} {b : CaseBranch}
    (h : parseCaseBranch g line s = .ok b t) :
    ∃ hs e, tagHeads s.stream.tokens = hs ++ e :: tagHeads t.stream.tokens ∧ NestedBody hs ∧
      e.name ∈ branchTags ∧ tagHead? t.stream.tokens = some e := by
  obtain ⟨values, u, hu, hrest⟩ := bind_eq_ok.1 h
  obtain ⟨hpass, -⟩ := quiet_whenValues hg.toHushed _ _ hu
  obtain ⟨body, v, hv, hpure⟩ := bind_eq_ok.1 hrest
  obtain ⟨-, rfl⟩ := EStateM.Result.ok.inj hpure
  have hbody : parseStatements g (branchTags.map .name) false u = .ok body v := hv
  rw [tagHeads_passes hpass]
  exact nested_statements hg hbody

/-- **Branches** before the end tag are read up to behind that tag. -/
theorem branches_endcase (hend : e.name = "endcase") (he : tagHead? s.stream.tokens = some e)
    (h : repeatFrom (fun x => parseNextBranch g x.1 x.2) x s = .ok y t) : t = s.stepped := by
  have hs := branchTag_of_tagHead? (by rw [hend]; decide) he
  have hnot {n : String} (hn : n ≠ "endcase") : s.stream.current.kind ≠ .name n := by
    intro hk
    exact hn ((name_of_tagHead? he hk).symm.trans hend)
  have hround {z u} (hz : parseNextBranch g x.1 x.2 s = .ok z u) :
      u = s.stepped ∧ z = .inr x := by
    rcases nextBranch_cases hs hz with ⟨hk, _⟩ | ⟨hk, _⟩ | ⟨_, hu, hz⟩
    · exact absurd hk (hnot (by decide))
    · exact absurd hk (hnot (by decide))
    · exact ⟨hu, hz⟩
  rcases repeatFrom_eq_ok.1 h with hlast | ⟨x', u, hnext, _, _⟩
  · exact (hround hlast).1
  · nomatch (hround hnext).2

/-- **All branches**, from the name of the tag behind a branch up to behind the end tag. What is left
decreases from one branch to the next one, and the rest of the branches is what nests. -/
theorem nests_branches (hg : g.Nesting) (hname : e.name ∈ branchTags)
    (he : tagHead? s.stream.tokens = some e) :
    Nests (repeatFrom (fun x => parseNextBranch g x.1 x.2) x) s
      (fun hs => NestedTail "case" (e :: hs)) := by
  induction hn : s.remaining using Nat.strongRecOn generalizing s e x with
  | _ n ih =>
      intro y t h
      have hs := branchTag_of_tagHead? hname he
      rcases repeatFrom_eq_ok.1 h with hlast | ⟨x', u, hround, hlt, hrest⟩
      · rcases nextBranch_cases hs hlast with ⟨_, _, _, hy⟩ | ⟨_, _, _, hy⟩ | ⟨hk, rfl, _⟩
        · nomatch hy
        · nomatch hy
        · exact ⟨[], tagHeads_name he, .close (name_of_tagHead? he hk)⟩
      · rcases nextBranch_cases hs hround with ⟨hk, b, hb, _⟩ | ⟨hk, body, hbody, _⟩ | ⟨_, _, hx⟩
        · obtain ⟨hs, e', hheads, hnested, hname', he'⟩ := nested_caseBranch hg hb
          obtain ⟨more, hmore, htail⟩ := ih u.remaining (hn ▸ hlt) hname' he' rfl y t hrest
          refine ⟨hs ++ e' :: more, ?_, .further (name_of_tagHead? he hk ▸ rfl) hnested htail⟩
          rw [tagHeads_name he, hheads, hmore, List.append_assoc]
          rfl
        · obtain ⟨hs, e', hheads, hnested, hname', he'⟩ := nested_statements hg hbody
          have hend : e'.name = "endcase" := List.mem_singleton.1 hname'
          obtain rfl := branches_endcase hend he' hrest
          refine ⟨hs ++ [e'], ?_, .otherwise (name_of_tagHead? he hk) hnested hend⟩
          rw [tagHeads_name he, hheads, tagHeads_name he', List.append_assoc]
          rfl
        · nomatch hx

theorem nests_case (hg : g.Nesting) : NestsTag "case" (parseCase g) := by
  intro s assigns he
  apply Nests.take he
  refine Nests.quiet (quiet_expression hg.toHushed true true _) fun subject t _ => ?_
  refine Nests.quiet quiet_freshName fun target u _ => ?_
  intro x v h
  obtain ⟨body, w, hw, hrest⟩ := bind_eq_ok.1 h
  have hbody : parseStatements g (branchTags.map .name) false u = .ok body w := hw
  obtain ⟨hs, e, hheads, hnested, hname, he'⟩ := nested_statements hg hbody
  obtain ⟨y, z, hbranches, hpure⟩ := bind_eq_ok.1 hrest
  obtain ⟨-, rfl⟩ := EStateM.Result.ok.inj hpure
  obtain ⟨more, hmore, htail⟩ := nests_branches hg hname he' y z hbranches
  have hbranched : BranchedBody "case" (hs ++ e :: more) := ⟨hs, e :: more, rfl, hnested, htail⟩
  refine ⟨hs ++ e :: more, ?_, hbranched.branching (by decide) assigns⟩
  rw [hheads, hmore, List.append_assoc]
  rfl

/-! ### Statements -/

theorem quietTag_do (hg : g.Hushed) : QuietTag (parseDo g) := by
  intro s hk
  apply Quiet.take hk
  exact (quiet_anyTuple hg _).bind fun _ _ _ => Quiet.pure trivial

theorem quietTag_shout (hg : g.Hushed) : QuietTag (parseShout g) := by
  intro s hk
  apply Quiet.take hk
  exact (quiet_expression hg true true _).bind fun _ _ _ => Quiet.pure trivial

/-- **The tag of a known extension**, which is none of every environment. -/
theorem nests_known {x : Extension} (hg : g.Nesting) (hx : x.Known) (htag : tag ∈ x.tags)
    (hnew : builtin? g tag = none) : NestsTag tag (x.parse g) := by
  cases hx with
  | doExpr =>
      obtain rfl := List.mem_singleton.1 htag
      exact (quietTag_do hg.toHushed).nests (by decide)
  | case =>
      obtain rfl := List.mem_singleton.1 htag
      exact nests_case hg
  | shout h =>
      have hsimple : tag ∈ TagHead.simpleTags := by
        rcases List.mem_cons.1 (h tag htag) with rfl | htag
        · decide
        rcases List.mem_cons.1 htag with rfl | htag
        · nomatch hnew
        · obtain rfl := List.mem_singleton.1 htag
          decide
      exact (quietTag_shout hg.toHushed).nests hsimple

/-- **Any tag.** -/
theorem nests_tag (henv : ∀ x ∈ env.extensions, x.Known) (hg : g.Nesting) {p : Parser Expansion}
    (h : tag? env g tag = some p) : NestsTag tag p := by
  unfold tag? at h
  split at h
  · next q hq =>
      obtain rfl := Option.some.inj h
      intro s assigns he x t hx
      obtain ⟨stmt, hstmt, rfl⟩ := map_eq_ok.1 hx
      exact nests_builtin hg hq s assigns he stmt t hstmt
  · next hnew =>
      obtain ⟨x, hx, rfl⟩ := Option.map_eq_some_iff.1 h
      obtain ⟨hmem, htag⟩ := Environment.extension?_mem hx
      exact nests_known hg (henv x hmem) htag hnew

theorem nests_statement (henv : ∀ x ∈ env.extensions, x.Known) (hg : g.Nesting) :
    Nests (parseStatement env g) s
      (fun hs => ∃ e, tagHead? s.stream.tokens = some e ∧ NestedTag (e :: hs)) := by
  intro x t h
  obtain ⟨tok, u, hu, hmatch⟩ := bind_eq_ok.1 h
  obtain ⟨rfl, rfl⟩ := current_eq_ok.1 hu
  cases hname : u.stream.current.name? with
  | none =>
      rw [hname] at hmatch
      exact absurd hmatch (failAt_ne_ok _ _)
  | some tag =>
      rw [hname] at hmatch
      dsimp only at hmatch
      cases hp : tag? env g tag with
      | none =>
          rw [hp] at hmatch
          nomatch hmatch
      | some p =>
          rw [hp] at hmatch
          obtain ⟨v, w, hv, hw, hx⟩ := inTag_eq_ok hmatch
          have he : tagHead? u.stream.tokens =
              some ⟨tag, assignsAhead u.stepped.stream.tokens⟩ :=
            tagHead?_eq_some_iff.2 ⟨Token.name?_eq_some_iff.1 hname, rfl⟩
          obtain ⟨hs, hheads, htag⟩ := nests_tag henv hg hp v _ (hv ▸ he) x w hx
          rw [hv, hw] at hheads
          exact ⟨hs, hheads, _, he, htag⟩

/-! ### Grammars -/

/-- **The bounded grammars** nest, since their references are to those of smaller bounds. -/
theorem nesting_below (henv : ∀ x ∈ env.extensions, x.Known) (n : Nat) :
    (below env n).Nesting := by
  induction n using Nat.strongRecOn with
  | _ n ih =>
      have hhushed : (below env n).Hushed := (faithful_below ⟨henv, fun _ => rfl⟩ n).toHushed
      refine { hhushed with spares := ?_, statement := ?_, branch := ?_ }
      · intro s e t h hassign
        rw [below_group] at h
        obtain ⟨hlt, htuple⟩ :=
          guarded_eq_ok (p := fun j => parseTuple (below env j) (.expression true) [] true) h
        exact spares_tuple (spares_tupleItem (ih _ hlt).spares _) _ _ s e t htuple hassign
      · intro s x t h
        rw [below_statement] at h
        obtain ⟨hlt, hstatement⟩ :=
          guarded_eq_ok (p := fun j => parseStatement env (below env j)) h
        exact nests_statement henv (ih _ hlt) x t hstatement
      · intro line tag s htag x t h
        rw [below_branch] at h
        obtain ⟨hlt, hbranch⟩ :=
          guarded_eq_ok (p := fun j => parseBranch (below env j) line tag false) h
        exact nests_branch (ih _ hlt) line false htag x t hbranch

/-- **The grammar of an environment** nests. -/
theorem nesting_grammar (henv : ∀ x ∈ env.extensions, x.Known) : env.grammar.Nesting := by
  have hbelow (n : Nat) := nesting_below henv n
  have hhushed : env.grammar.Hushed := (faithful_grammar ⟨henv, fun _ => rfl⟩).toHushed
  refine { hhushed with spares := ?_, statement := ?_, branch := ?_ }
  · intro s e t h hassign
    exact spares_tuple (spares_tupleItem (hbelow s.weight).spares _) _ _ s e t h hassign
  · exact fun s x t h => nests_statement henv (hbelow s.weight) x t h
  · exact fun line tag s htag x t h => nests_branch (hbelow s.weight) line false htag x t h

/-! ### Templates -/

/-- **The tags of a stream** of the tokens of a template are those of a body. -/
theorem nested_stream (henv : ∀ x ∈ env.extensions, x.Known) {tokens : List Token} {source : String}
    {name filename : Option String} {body : List Stmt}
    (htokens : Token.ofTemplate env.delimiters source = .ok tokens)
    (h : env.parseStream (.ofTokens tokens name filename) = .ok body) :
    NestedBody (tagHeads tokens) := by
  obtain ⟨proper, last, htok, hproper, -⟩ := Token.ofTemplate_eq htokens
  have hstream : (TokenStream.ofTokens tokens name filename).tokens = tokens := by
    rw [TokenStream.tokens_ofTokens, TokenStream.close_ofTemplate htokens]
  have hshaped : Shaped (TokenStream.ofTokens tokens name filename).tokens := by
    rw [hstream]
    exact shaped_of_ok htokens
  have hmoves := outcome_template henv (s := { stream := .ofTokens tokens name filename }) hshaped
  obtain ⟨t, hbody⟩ := parseStream_eq_ok.1 h
  rw [hbody] at hmoves
  have hsuf : t.stream.tokens <:+ proper ++ [last] := by
    rw [← htok, ← hstream]
    exact hmoves ⟨_, hshaped, List.suffix_refl _⟩
  have hparts : repeatFrom (parseBodyPart env.grammar (([] : List String).map .name)) {}
      { stream := .ofTokens tokens name filename } = .ok body t := hbody
  rcases nested_body (nesting_grammar henv) hparts with
    ⟨⟨hs, hheads, hnested⟩, hend⟩ | ⟨_, _, _, _, hnone, _⟩
  · have hlast : tagHeads t.stream.tokens = [] := by
      have hkind : t.stream.current.kind ≠ .mark .blockBegin := by
        rw [Token.isEnd_iff.1 hend]
        rintro ⟨⟩
      rw [TokenStream.tokens, later_of_end hproper hsuf hend]
      exact tagHeads_plain hkind
    rw [hlast, List.append_nil, hstream] at hheads
    rw [hheads]
    exact hnested
  · cases hnone

/-- The first tag of a stream, if it has any, is neither an alternative nor an end. -/
theorem opens_of_stream (henv : ∀ x ∈ env.extensions, x.Known) {tokens : List Token}
    {source : String} {name filename : Option String} {body : List Stmt}
    (htokens : Token.ofTemplate env.delimiters source = .ok tokens)
    (h : env.parseStream (.ofTokens tokens name filename) = .ok body) :
    ∀ e ∈ (tagHeads tokens).head?, e.Opens := by
  intro e he
  rcases (nested_stream henv htokens h).opens with hnil | ⟨e', hs, hheads, hopens⟩
  · rw [hnil] at he
    nomatch he
  · rw [hheads] at he
    obtain rfl := Option.some.inj he
    exact hopens

/-- **Only well-nested templates are accepted**: the tags of a template, by the names behind their
beginnings, are those of a body. -/
theorem nesting_of_template (hext : ∀ x ∈ env.extensions, x.Known) {source : String}
    {name filename : Option String} {body : List Stmt}
    (h : env.parseTemplate source name filename = .ok body) :
    ∃ tokens, Token.ofTemplate env.delimiters source = .ok tokens ∧
      NestedBody (tagHeads tokens) := by
  obtain ⟨tokens, htokens, h⟩ := parseTemplate_eq_ok.1 h
  exact ⟨tokens, htokens, nested_stream hext htokens h⟩

/-- An assignment without a sign has a body and an end. -/
theorem nesting_of_template_set :
    let env : Environment := ({} : Environment).withExtension .doExpr
    let source := "\x7b%set x%\x7d\x7b%endset%\x7d"
    ∃ tokens, Token.ofTemplate env.delimiters source = .ok tokens ∧
      tagHeads tokens = [⟨"set", false⟩, ⟨"endset", false⟩] ∧ NestedBody (tagHeads tokens) := by
  intro env source
  let tokens : List Token := [⟨.mark .blockBegin, 1, ⟨0, 2⟩⟩, ⟨.name "set", 1, ⟨2, 5⟩⟩,
    ⟨.name "x", 1, ⟨6, 7⟩⟩, ⟨.mark .blockEnd, 1, ⟨7, 9⟩⟩, ⟨.mark .blockBegin, 1, ⟨9, 11⟩⟩,
    ⟨.name "endset", 1, ⟨11, 17⟩⟩, ⟨.mark .blockEnd, 1, ⟨17, 19⟩⟩,
    ⟨.mark .endOfTemplate, 1, ⟨19, 19⟩⟩]
  have htokens : Token.ofTemplate env.delimiters source = .ok tokens := by cbv
  have hsome : (env.parseStream (.ofTokens tokens none none)).toOption.isSome = true := by cbv
  have hknown : ∀ x ∈ env.extensions, x.Known := by
    intro x hx
    rw [List.mem_singleton.1 hx]
    exact .doExpr
  cases h : env.parseStream (.ofTokens tokens none none) with
  | error e =>
      rw [h] at hsome
      cases hsome
  | ok body =>
      obtain ⟨tokens', htokens', hnested⟩ :=
        nesting_of_template hknown ((parseTemplate_eq none none htokens).trans h)
      obtain rfl := Except.ok.inj (htokens.symm.trans htokens')
      exact ⟨tokens, htokens, rfl, hnested⟩

end LiquidTemplate
