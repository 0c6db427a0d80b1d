import LiquidTemplate.Proofs.Forms.Arguments
import LiquidTemplate.Proofs.Texts.Cases

/-!
# Case distinctions as they are written

A case distinction is written as a subject, branches with values and bodies, and at most one body
behind all of them. This is what its parser reads, apart from what it makes of it.

* `WhenBranch`, `WhenValues`, `WhenBranches`: the branches.
* `CaseBlock`: the whole of it.
* `ends_of_statements`: a body ends at the name of one of its end tags.
* `caseBlock_of_ok`: what the parser makes of what is written.
-/

namespace LiquidTemplate

open LiquidTemplate.Parser LiquidTemplate.Grammar

variable {g : Grammar} {s t u : ParserState} {es : List Expr}

/-- **A branch as it is written**: the expressions between its commas, its body and its line. -/
structure WhenBranch where
  values : List Expr
  body : List Stmt
  line : Nat

namespace WhenBranch

/-- The branch with the values that are compared: `or` stands for a comma. -/
def toCase (b : WhenBranch) : CaseBranch :=
  ⟨b.values.flatMap Expr.alternatives, b.body, b.line⟩

end WhenBranch

namespace Grammar

/-- **The values of a branch**: expressions with commas between them. -/
inductive WhenValues (g : Grammar) : ParserState → List Expr → ParserState → Prop where
  | last {s t : ParserState} {e : Expr} (he : parseExpression g false true s = .ok e t)
      (hend : t.stream.current.isSymbol .comma = false) : WhenValues g s [e] t
  | more {s t u : ParserState} {e : Expr} {es : List Expr}
      (he : parseExpression g false true s = .ok e t)
      (hcomma : t.stream.current.isSymbol .comma = true) (rest : WhenValues g t.stepped es u) :
      WhenValues g s (e :: es) u

/-- **The branches** up to the end tag, with the body behind `else`, if there is one. -/
inductive WhenBranches (g : Grammar) :
    ParserState → List WhenBranch → Option (List Stmt) → ParserState → Prop where
  | finish {s : ParserState} (hend : s.stream.current.kind = .name "endcase") :
      WhenBranches g s [] none s.stepped
  | otherwise {s t : ParserState} {body : List Stmt} (helse : s.stream.current.kind = .name "else")
      (hbody : parseStatements g [.name "endcase"] false s.stepped = .ok body t) :
      WhenBranches g s [] (some body) t.stepped
  | branch {s t u v : ParserState} {es : List Expr} {body : List Stmt} {bs : List WhenBranch}
      {o : Option (List Stmt)} (hwhen : s.stream.current.kind = .name "when")
      (hvalues : WhenValues g s.stepped es t) (hbody : parseStatements g branchEnds false t = .ok body u)
      (rest : WhenBranches g u bs o v) :
      WhenBranches g s (⟨es, body, s.stream.current.line⟩ :: bs) o v

/-- **A case distinction** from its name on: the subject, the number of the name that is made up for
it, something that is dropped, and the branches. -/
structure CaseBlock (g : Grammar) (s : ParserState) (subject : Expr) (number : Nat)
    (bs : List WhenBranch) (o : Option (List Stmt)) (t : ParserState) : Prop where
  read : ∃ u dropped v, parseExpression g true true s.stepped = .ok subject u ∧
    number = u.madeUp + 1 ∧
    parseStatements g branchEnds false { u with madeUp := number } = .ok dropped v ∧
    WhenBranches g v bs o t

end Grammar

/-- **The name with this number** that is made up. -/
def internalName (number : Nat) : String :=
  "$fi" ++ toString number

/-! ### Bodies and branches -/

/-- **A body ends** at the name of one of its end tags. -/
theorem ends_of_statements {tags : List String} {body : List Stmt}
    (h : parseStatements g (tags.map .name) false s = .ok body t) :
    ∃ tag ∈ tags, t.stream.current.kind = .name tag := by
  obtain ⟨_, u, -, h⟩ := bind_eq_ok.1 h
  obtain ⟨_, v, -, h⟩ := bind_eq_ok.1 h
  obtain ⟨ss, w, hbody, h⟩ := bind_eq_ok.1 h
  obtain ⟨v', w', -, hstream, hparts⟩ := awaiting_eq_ok hbody
  have h := of_current h
  split at h
  · nomatch h
  · next hend =>
    obtain ⟨rfl, rfl⟩ := of_pure h
    obtain ⟨b, x, -, hlast⟩ :=
      repeatFrom_induction (fun _ _ => True) (fun _ _ _ _ _ _ _ => trivial) trivial hparts
    rw [← hstream] at hend ⊢
    generalize hresult : (Sum.inr body : PartialBody ⊕ List Stmt) = result at hlast
    cases bodyStep_of_ok hlast with
    | text | output | statement => nomatch hresult
    | endTag _ hfits => exact fitsAny_names hfits
    | endOfTemplate hk => exact absurd (Token.isEnd_iff.2 hk) hend

/-- **Values** that have been read. -/
theorem whenValues_of_ok {values : List Expr} (h : parseWhenValues g s = .ok values t) :
    ∃ es, WhenValues g s es t ∧ values = es.flatMap Expr.alternatives := by
  have hall (n : Nat) (done : List Expr) (s : ParserState) (hn : s.remaining = n)
      (h : repeatFrom (parseNextWhenValue g) done s = .ok values t) :
      ∃ es, WhenValues g s es t ∧ values = done ++ es.flatMap Expr.alternatives := by
    induction n using Nat.strongRecOn generalizing done s with
    | _ n ih =>
      rcases repeatFrom_eq_ok.1 h with hlast | ⟨more, u, hround, hlt, hrest⟩
      · obtain ⟨e, u, he, hsep⟩ := bind_eq_ok.1 hlast
        obtain ⟨found, v, hfound, hend⟩ := bind_eq_ok.1 hsep
        cases found with
        | true => nomatch hend
        | false =>
          obtain ⟨rfl, hcomma⟩ := skipIf_eq_false.1 hfound
          obtain ⟨heq, rfl⟩ := of_pure hend
          obtain rfl := Sum.inr.inj heq
          exact ⟨[e], .last he hcomma, by rw [List.flatMap_singleton]⟩
      · obtain ⟨e, v, he, hsep⟩ := bind_eq_ok.1 hround
        obtain ⟨found, w, hfound, hnext⟩ := bind_eq_ok.1 hsep
        cases found with
        | false => nomatch hnext
        | true =>
          obtain ⟨hcomma, rfl⟩ := skipIf_eq_true.1 hfound
          obtain ⟨heq, rfl⟩ := of_pure hnext
          obtain rfl := Sum.inl.inj heq
          obtain ⟨es, hes, rfl⟩ := ih _ (hn ▸ hlt) _ _ rfl hrest
          exact ⟨e :: es, .more he hcomma hes, by rw [List.flatMap_cons, List.append_assoc]⟩
  obtain ⟨es, hes, rfl⟩ := hall _ [] s rfl h
  exact ⟨es, hes, rfl⟩

theorem whenBranch_of_ok {line : Nat} {b : CaseBranch} (h : parseCaseBranch g line s = .ok b u) :
    ∃ es t body, WhenValues g s es t ∧ parseStatements g branchEnds false t = .ok body u ∧
      b = (WhenBranch.mk es body line).toCase := by
  obtain ⟨values, t, hvalues, h⟩ := bind_eq_ok.1 h
  obtain ⟨body, v, hbody, h⟩ := bind_eq_ok.1 h
  obtain ⟨rfl, rfl⟩ := of_pure h
  obtain ⟨es, hes, rfl⟩ := whenValues_of_ok hvalues
  exact ⟨es, t, body, hes, hbody, rfl⟩

/-- Behind the body for `else` there is only the end tag. -/
theorem finish_of_ok {done : List CaseBranch} {fallback : List Stmt}
    {x : List CaseBranch × List Stmt} (hend : s.stream.current.kind = .name "endcase")
    (h : repeatFrom (fun read => parseNextBranch g read.1 read.2) (done, fallback) s = .ok x t) :
    x = (done, fallback) ∧ t = s.stepped := by
  have htag : ∃ tag ∈ branchTags, s.stream.current.kind = .name tag :=
    ⟨"endcase", List.mem_of_getLast? rfl, hend⟩
  rcases repeatFrom_eq_ok.1 h with hlast | ⟨more, u, hround, -, -⟩
  · rcases nextBranch_cases htag hlast with ⟨hk, -⟩ | ⟨hk, -⟩ | ⟨-, rfl, heq⟩
    · exact absurd hend (ne_endcase hk (by decide))
    · exact absurd hend (ne_endcase hk (by decide))
    · exact ⟨Sum.inr.inj heq, rfl⟩
  · rcases nextBranch_cases htag hround with ⟨hk, -⟩ | ⟨hk, -⟩ | ⟨-, -, heq⟩
    · exact absurd hend (ne_endcase hk (by decide))
    · exact absurd hend (ne_endcase hk (by decide))
    · nomatch heq

/-- **Branches** that have been read, behind some others. -/
theorem whenBranches_of_ok {done : List CaseBranch} {x : List CaseBranch × List Stmt}
    (hs : ∃ tag ∈ branchTags, s.stream.current.kind = .name tag)
    (h : repeatFrom (fun read => parseNextBranch g read.1 read.2) (done, []) s = .ok x t) :
    ∃ bs o, WhenBranches g s bs o t ∧ x = (done ++ bs.map WhenBranch.toCase, o.getD []) := by
  induction hn : s.remaining using Nat.strongRecOn generalizing done s with
  | _ n ih =>
    rcases repeatFrom_eq_ok.1 h with hlast | ⟨more, u, hround, hlt, hrest⟩
    · rcases nextBranch_cases hs hlast with ⟨-, _, -, heq⟩ | ⟨-, _, -, heq⟩ | ⟨hend, rfl, heq⟩
      · nomatch heq
      · nomatch heq
      · exact ⟨[], none, .finish hend, by rw [Sum.inr.inj heq]; simp⟩
    · rcases nextBranch_cases hs hround with ⟨hwhen, b, hb, heq⟩ | ⟨helse, body, hbody, heq⟩ |
        ⟨-, -, heq⟩
      · obtain rfl := Sum.inl.inj heq
        obtain ⟨es, v, body, hvalues, hbody, rfl⟩ := whenBranch_of_ok hb
        have htag : ∃ tag ∈ branchTags, u.stream.current.kind = .name tag := ends_of_statements hbody
        obtain ⟨bs, o, hbs, rfl⟩ := ih _ (hn ▸ hlt) htag hrest rfl
        refine ⟨_, o, .branch hwhen hvalues hbody hbs, ?_⟩
        rw [List.map_cons, List.append_assoc]
        rfl
      · obtain rfl := Sum.inl.inj heq
        obtain ⟨tag, htag, hend⟩ := ends_of_statements hbody
        obtain rfl := List.mem_singleton.1 htag
        obtain ⟨rfl, rfl⟩ := finish_of_ok hend hrest
        exact ⟨[], some body, .otherwise helse hbody, by simp⟩
      · nomatch heq

/-- **What the parser makes of a case distinction**: an assignment to the made-up name and the chain of
conditions. -/
theorem caseBlock_of_ok {x : Expansion} (h : parseCase g s = .ok x t) :
    ∃ subject number bs o, CaseBlock g s subject number bs o t ∧ x = .multiple
      (.assign (.internalName (internalName number) s.stream.current.line) subject
          s.stream.current.line ::
        caseChain (internalName number) (bs.map WhenBranch.toCase) (o.getD [])) := by
  have h := of_advance h
  obtain ⟨subject, u, hu, h⟩ := bind_eq_ok.1 h
  obtain ⟨target, v, hv, h⟩ := bind_eq_ok.1 h
  obtain ⟨rfl, rfl⟩ := EStateM.Result.ok.inj hv
  obtain ⟨dropped, w, hw, h⟩ := bind_eq_ok.1 h
  obtain ⟨⟨branches, fallback⟩, z, hz, h⟩ := bind_eq_ok.1 h
  obtain ⟨rfl, rfl⟩ := of_pure h
  obtain ⟨bs, o, hbs, heq⟩ := whenBranches_of_ok (ends_of_statements hw) hz
  obtain ⟨rfl, rfl⟩ := Prod.mk.inj heq
  exact ⟨subject, u.madeUp + 1, bs, o, ⟨u, dropped, w, hu, rfl, hw, hbs⟩, rfl⟩

end LiquidTemplate
