import LiquidTemplate.Proofs.Concatenation.CaseTags
import LiquidTemplate.Proofs.Concatenation.Statements
import LiquidTemplate.Proofs.Exchange.Sessions

/-!
# Templates one after the other

The parts of a body in front of another template are read as they are in front of the end of the
template. So the statements of the first template come first, and those of the second one follow.

* `Sequel.Closing`: a sequel of tokens up to the end of a template.
* `BodyStep.along`: one part of a body before another sequel.
* `body_along`: all parts up to the end of the template.
* `Environment.parseStream_append`: templates one after the other.
* `Environment.parseStream_append_peeking`: not with an extension that looks behind its tag.
-/

namespace LiquidTemplate

open LiquidTemplate.Parser LiquidTemplate.Grammar

variable {x : Sequel} {g g' : Grammar} {env : Environment} {s s' t u : ParserState}
  {ts first second : List Token} {b c : PartialBody} {body front : List Stmt}

/-! ### Up to the end of a template -/

/-- **Sequels of a whole template**: behind the common tokens it has nothing more but its end. -/
def Sequel.Closing (x : Sequel) : Prop :=
  ∀ a ∈ x.old, a.isEnd = true

namespace Sequel

/-- **Before its end** a template is inside of the common tokens. -/
theorem Closing.inside (hx : x.Closing) (h : x.Along s s') (hus : u.stream.tokens <:+ s.stream.tokens)
    (hend : u.stream.current.isEnd = false) : x.Inside u := by
  obtain ⟨ts, hs, -⟩ := h.tokens
  have hold : x.old <:+ s.stream.tokens := ⟨ts, hs.symm⟩
  have hnot : u.stream.current ∉ x.old := fun hmem => by
    rw [hx _ hmem] at hend
    nomatch hend
  by_cases hlength : u.stream.tokens.length ≤ x.old.length
  · have hshort := List.suffix_of_suffix_length_le hus hold hlength
    exact absurd (hshort.subset List.mem_cons_self) hnot
  · obtain ⟨us, hu⟩ := List.suffix_of_suffix_length_le hold hus (Nat.le_of_not_le hlength)
    cases us with
    | nil => exact absurd (congrArg List.length hu).ge hlength
    | cons a us => exact ⟨a, us, hu.symm⟩

/-- **A part and the end of its tag** before another sequel. -/
theorem Closing.closed {α α' β β' : Type} {r : α → α'} {d : β → β'} {p : Parser α} {p' : Parser α'}
    (hx : x.Closing) (hp : Carries x r p p') {m : Mark} (hm : m ≠ .endOfTemplate) (f : α → β)
    (f' : α' → β') (hf : ∀ y, f' (r y) = d (f y)) {z : β} (h : x.Along s s')
    (hz : (do let y ← p; let _ ← expectMark m; return f y) s = .ok z t) :
    t.stream.tokens <:+ s.stream.tokens ∧ ∃ t',
      (do let y ← p'; let _ ← expectMark m; return f' y) s' = .ok (d z) t' ∧ x.Along t t' := by
  obtain ⟨y, u, hy, hz⟩ := bind_eq_ok.1 hz
  obtain ⟨hmark, hz⟩ := of_expect hz
  obtain ⟨rfl, rfl⟩ := of_pure hz
  obtain ⟨hus, hcarries⟩ := hp s y u hy
  have hend : u.stream.current.isEnd = false :=
    Token.isEnd_of_kind (Token.isMark_iff.1 hmark) fun heq => hm (Token.Kind.mark.inj heq)
  have hin := hx.inside h hus hend
  obtain ⟨u', hy', hu⟩ := hcarries hin s' h
  refine ⟨u.stepped_suffix.trans hus, u'.stepped, ?_, hu.stepped hin⟩
  refine bind_eq_ok.2 ⟨r y, u', hy', bind_eq_ok.2 ⟨u'.stream.current, u'.stepped, ?_, ?_⟩⟩
  · exact expect_eq_ok.2 ⟨(hu.current hin).symm ▸ hmark, rfl, rfl⟩
  · rw [hf]
    rfl

end Sequel

/-- What a part of a body is, if no tag ends it, is what is read, also where tags end a body that are
no statements. -/
theorem BodyStep.read {ends : List TokenRule} {z : PartialBody ⊕ List Stmt}
    (hends : ∀ s y t, g.statement s = .ok y t → s.stream.current.fitsAny ends = false)
    (h : BodyStep g [] b s z t) : parseBodyPart g ends b s = .ok z t := by
  cases h with
  | text hk =>
    refine bind_eq_ok.2 ⟨_, s, rfl, ?_⟩
    rw [hk]
    rfl
  | output hk h => exact parseBodyPart_of_output hk h
  | @statement ss t hk h =>
    refine bind_eq_ok.2 ⟨_, s, rfl, ?_⟩
    rw [hk]
    refine bind_eq_ok.2 ⟨(), s.stepped, rfl, bind_eq_ok.2 ⟨_, s.stepped, rfl, ?_⟩⟩
    obtain ⟨y, u, hy, -⟩ := bind_eq_ok.1 h
    rw [hends s.stepped y u hy]
    exact bind_eq_ok.2 ⟨ss, t, h, rfl⟩
  | endTag _ h => nomatch h
  | endOfTemplate hk => exact parseBodyPart_of_end hk

section Along

variable (hx : x.Closing) (hg : g.Continues x g') (hforming : g.Forming)
  (hstatement : Carries x (Expansion.renamed x.names) g.statement g'.statement)
include hx hg hforming hstatement

/-- **One part of a body** before another sequel. -/
theorem BodyStep.along (front : List Stmt) (h : x.Along s s')
    (hstep : BodyStep g [] b s (.inl c) t) : t.stream.tokens <:+ s.stream.tokens ∧ ∃ t',
      BodyStep g' [] (b.behind front x.names) s' (.inl (c.behind front x.names)) t' ∧ x.Along t t' := by
  have hhere {k : Token.Kind} (hk : s.stream.current.kind = k)
      (hend : k ≠ .mark .endOfTemplate) : x.Inside s ∧ s'.stream.current.kind = k := by
    have hin := hx.inside h (List.suffix_refl _) (Token.isEnd_of_kind hk hend)
    exact ⟨hin, (h.current hin).symm ▸ hk⟩
  cases hstep with
  | @text data hk =>
    obtain ⟨hin, hk'⟩ := hhere hk nofun
    refine ⟨s.stepped_suffix, s'.stepped, ?_, h.stepped hin⟩
    rw [b.behind_addText, ← h.current hin]
    exact .text hk'
  | @output e t hk he =>
    obtain ⟨hin, hk'⟩ := hhere hk nofun
    obtain ⟨hts, t', he', ht⟩ := hx.closed (renamed_tuple hg hforming _ _) (m := .variableEnd)
      nofun id id (fun _ => rfl) (h.stepped hin) he
    refine ⟨hts.trans s.stepped_suffix, t', ?_, ht⟩
    rw [b.behind_addOutput]
    exact .output hk' he'
  | @statement ss t hk hss =>
    obtain ⟨hin, hk'⟩ := hhere hk nofun
    obtain ⟨hts, t', hss', ht⟩ := hx.closed hstatement (m := .blockEnd) nofun Expansion.toList
      Expansion.toList (fun y => y.toList_renamed _) (h.stepped hin) hss
    refine ⟨hts.trans s.stepped_suffix, t', ?_, ht⟩
    rw [PartialBody.behind_addStatements, b.behind_flush]
    exact .statement hk' hss'

/-- **All parts** up to the end of the template: what is read there decides what the whole is. -/
theorem body_along (front : List Stmt) (ends : List TokenRule)
    (hends : ∀ s y t, g'.statement s = .ok y t → s.stream.current.fitsAny ends = false)
    (h : x.Along s s') (hbody : repeatFrom (parseBodyPart g []) b s = .ok body t) :
    t.stream.tokens <:+ s.stream.tokens ∧ t.stream.current.isEnd = true ∧
      ∃ (c : PartialBody) (t' : ParserState), c.flush.stmts = body ∧ x.Along t t' ∧ ∀ z w,
        repeatFrom (parseBodyPart g' ends) (c.behind front x.names) t' = .ok z w →
          repeatFrom (parseBodyPart g' ends) (b.behind front x.names) s' = .ok z w := by
  induction hn : s.remaining using Nat.strongRecOn generalizing b s s' with
  | _ n ih =>
    rcases repeatFrom_eq_ok.1 hbody with hlast | ⟨c, u, hpart, hlt, hrest⟩
    · cases bodyStep_of_ok hlast with
      | endTag _ htag => nomatch htag
      | endOfTemplate hk =>
        exact ⟨List.suffix_refl _, Token.isEnd_iff.2 hk, b, s', rfl, h, fun _ _ hz => hz⟩
    · obtain ⟨hus, u', hstep, hu⟩ :=
        (bodyStep_of_ok hpart).along hx hg hforming hstatement front h
      obtain ⟨hts, hend, d, t', hd, ht, hmore⟩ := ih u.remaining (hn ▸ hlt) hu hrest rfl
      refine ⟨hts.trans hus, hend, d, t', hd, ht, fun z w hz => ?_⟩
      exact repeatFrom_eq_ok.2 (.inr ⟨_, u', hstep.read hends, h.remaining_lt hu hlt, hmore z w hz⟩)

end Along

/-! ### Two templates -/

namespace Sequel

/-- **The second template** in the place of the end of the first one. -/
def followedBy (first : List Token) (t : Token) (ts : List Token) (ht : t.isMark .blockBegin = true) :
    Sequel where
  old := [TokenStream.endAfter first]
  new := t :: ts
  shift := 0
  names := id
  ends := .inr ⟨⟨_, [], rfl, TokenStream.isMark_endAfter first⟩, t, ts, rfl, Token.isMark_of_isMark ht⟩
  weight_le := by
    have hold := Token.isEnd_iff.1 (TokenStream.isEnd_endAfter first)
    have hnew := Token.isMark_iff.1 ht
    rw [List.map_cons, List.map_cons, List.map_nil, hold, hnew]
    exact Nat.le_add_right 1 _
  renames := alone.renames

/-- **The same tokens**, before which more names have been made up. -/
def renumbering (k : Nat) : Sequel :=
  { alone with shift := k, names := renumbered k, renames := renumbered_internalName k }

end Sequel

theorem PartialBody.behind_nil_id (b : PartialBody) : b.behind [] id = b := by
  obtain ⟨stmts, pending⟩ := b
  rw [behind, List.nil_append, Stmt.map_renamed_eq_self fun s _ => s.renamed_id,
    Expr.map_renamed_eq_self fun e _ => e.renamed_id]

/-- **At the beginning of a tag** the outputs that are in no statement yet become one. -/
theorem body_of_flush (hs : s.stream.current.kind = .mark .blockBegin)
    (h : repeatFrom (parseBodyPart g []) b.flush s = .ok body t) :
    repeatFrom (parseBodyPart g []) b s = .ok body t := by
  have hmarks {m : Mark} (hk : s.stream.current.kind = .mark m) : m = .blockBegin :=
    Token.Kind.mark.inj (hk.symm.trans hs)
  have hflush : b.flush.flush = b.flush := by
    obtain ⟨stmts, pending⟩ := b
    cases pending <;> rfl
  rcases repeatFrom_eq_ok.1 h with hlast | ⟨c, u, hpart, hlt, hrest⟩
  · cases bodyStep_of_ok hlast with
    | endTag _ hends => nomatch hends
    | endOfTemplate hk => nomatch hmarks hk
  · cases bodyStep_of_ok hpart with
    | text hk => nomatch hk.symm.trans hs
    | output hk => nomatch hmarks hk
    | statement hk hss =>
      rw [hflush] at hrest
      exact repeatFrom_eq_ok.2
        (.inr ⟨_, u, (BodyStep.statement hk hss).read fun _ _ _ _ => rfl, hlt, hrest⟩)

/-- **Behind other statements** the second template is read as it is alone, with higher numbers. -/
theorem body_behind (henv : env.Local) (front : List Stmt) {k : Nat}
    (htokens : u.stream.tokens = s.stream.tokens) (hmadeUp : u.madeUp = s.madeUp + k)
    (h : repeatFrom (parseBodyPart env.grammar []) {} s = .ok body t) :
    ∃ v, repeatFrom (parseBodyPart env.grammar []) ⟨front, []⟩ u =
      .ok (front ++ body.map (Stmt.renamed (renumbered k))) v := by
  have halong : (Sequel.renumbering k).Along s u :=
    ⟨⟨s.stream.tokens, (List.append_nil _).symm, htokens.trans (List.append_nil _).symm⟩, hmadeUp⟩
  obtain ⟨-, hend, c, v, hc, hv, hmore⟩ := body_along (x := .renumbering k) nofun
    (continues_grammar env _) (forming_grammar env) (carries_grammarStatement henv _)
    front [] (fun _ _ _ _ => rfl) halong h
  have hin : (Sequel.renumbering k).Inside t :=
    ⟨t.stream.current, t.stream.later, (List.append_nil _).symm⟩
  have hfinish : v.stream.current.kind = .mark .endOfTemplate :=
    (hv.current hin).symm ▸ Token.isEnd_iff.1 hend
  have hrest := hmore _ _ (repeatFrom_eq_ok.2 (.inl (parseBodyPart_of_end hfinish)))
  rw [PartialBody.stmts_behind_flush, hc] at hrest
  have hempty : PartialBody.behind front (renumbered k) {} = ⟨front, []⟩ :=
    congrArg (PartialBody.mk · []) (List.append_nil front)
  exact ⟨v, hempty ▸ hrest⟩

/-- **In front of a second template** the first one is read as it is alone. -/
theorem body_before (henv : env.Local) {a : Token}
    (hbegin : a.isMark .blockBegin = true) (hfirst : ∀ c ∈ first, c.isEnd = false)
    {stream whole : TokenStream} (hstream : stream.tokens = first ++ [TokenStream.endAfter first])
    (hwhole : whole.tokens = first ++ a :: ts)
    (h : repeatFrom (parseBodyPart env.grammar []) {} { stream } = .ok body t) :
    ∃ (c : PartialBody) (u : ParserState), c.flush = ⟨body, []⟩ ∧ u.stream.tokens = a :: ts ∧
      u.madeUp = t.madeUp ∧ ∀ z w, repeatFrom (parseBodyPart env.grammar []) c u = .ok z w →
        repeatFrom (parseBodyPart env.grammar []) {} { stream := whole } = .ok z w := by
  have halong : (Sequel.followedBy first a ts hbegin).Along { stream } { stream := whole } :=
    ⟨⟨first, hstream, hwhole⟩, rfl⟩
  have hclosing : (Sequel.followedBy first a ts hbegin).Closing :=
    List.forall_mem_singleton.2 (TokenStream.isEnd_endAfter first)
  obtain ⟨hsuf, hend, c, u, hc, hu, hmore⟩ := body_along hclosing (continues_grammar env _)
    (forming_grammar env) (carries_grammarStatement henv _) [] [] (fun _ _ _ _ => rfl) halong h
  obtain ⟨us, hus, hus'⟩ := hu.tokens
  have hnil : us = [] := by
    refine eq_nil_of_not_mem hus (hstream ▸ hsuf) fun hmem => ?_
    rw [hfirst _ hmem] at hend
    nomatch hend
  refine ⟨c, u, congrArg₂ PartialBody.mk hc c.pending_flush, ?_, hu.madeUp, fun z w hz => ?_⟩
  · rw [hus', hnil]
    rfl
  · have hgo := hmore z w
    rw [show (Sequel.followedBy first a ts hbegin).names = id from rfl, PartialBody.behind_nil_id,
      PartialBody.behind_nil_id] at hgo
    exact hgo hz

/-- What closes the second of two lists closes both. -/
theorem TokenStream.close_append {a : Token} {as : List Token} (hfirst : ∀ c ∈ first, c.isEnd = false)
    (hsecond : ∀ c ∈ a :: as, c.isEnd = false) :
    close (first ++ a :: as) = first ++ close (a :: as) := by
  have hlast : (first ++ a :: as).getLast? = (a :: as).getLast? := by
    rw [List.getLast?_append, List.getLast?_cons, Option.some_or]
  have hend : endAfter (first ++ a :: as) = endAfter (a :: as) := by
    unfold endAfter
    rw [hlast]
  rw [close_eq_append hsecond, close_eq_append (List.forall_mem_append.2 ⟨hfirst, hsecond⟩), hend,
    List.append_assoc]

theorem map_renumbered_zero (ss : List Stmt) : ss.map (Stmt.renamed (renumbered 0)) = ss := by
  rw [renumbered_zero]
  exact Stmt.map_renamed_eq_self fun stmt _ => stmt.renamed_id

section Append

variable {name₁ name₂ filename₁ filename₂ : Option String} {body' : List Stmt}
  (henv : env.Local) (hfirst : ∀ c ∈ first, c.isEnd = false)
  (hsecond : ∀ c ∈ second, c.isEnd = false)
  (hbegin : ∀ c ∈ second.head?, c.isMark .blockBegin = true)
include henv hfirst hsecond hbegin

/-- The statements of the second template behind those of the first one, with the numbers of their
made-up names behind its numbers. -/
theorem body_append (name filename : Option String)
    (h : env.grammar.parseBody none { stream := .ofTokens first name₁ filename₁ } = .ok body t)
    (h' : env.parseStream (.ofTokens second name₂ filename₂) = .ok body') :
    env.parseStream (.ofTokens (first ++ second) name filename) =
      .ok (body ++ body'.map (Stmt.renamed (renumbered t.madeUp))) := by
  obtain ⟨t', h'⟩ := parseStream_eq_ok.1 h'
  have hstream (ts : List Token) (name filename : Option String) :=
    TokenStream.tokens_ofTokens ts name filename
  refine parseStream_eq_ok.2 ?_
  cases second with
  | nil =>
    have hempty : ({ stream := .ofTokens [] name₂ filename₂ } : ParserState).stream.current.kind =
        .mark .endOfTemplate := rfl
    obtain ⟨-, rfl⟩ := body_of_end hempty h'
    let alone : ParserState := { stream := .ofTokens first name filename }
    obtain ⟨v, hv⟩ := body_behind (u := alone) (k := 0) henv []
      ((hstream first name filename).trans (hstream first name₁ filename₁).symm) rfl h
    rw [map_renumbered_zero] at hv
    rw [List.append_nil, show PartialBody.flush {} = {} from rfl, List.map_nil, List.append_nil]
    exact ⟨v, hv⟩
  | cons a as =>
    have hclose : TokenStream.close (a :: as) = a :: (as ++ [TokenStream.endAfter (a :: as)]) :=
      close_eq_append hsecond
    have hwhole := (hstream (first ++ a :: as) name filename).trans
      ((TokenStream.close_append hfirst hsecond).trans (congrArg _ hclose))
    obtain ⟨c, u, hc, hu, hmadeUp, hmore⟩ := body_before henv (hbegin a rfl) hfirst
      ((hstream first name₁ filename₁).trans (close_eq_append hfirst)) hwhole h
    obtain ⟨v, hv⟩ := body_behind (u := u) (k := t.madeUp) henv body
      (hu.trans (hclose.symm.trans (hstream _ name₂ filename₂).symm))
      (hmadeUp.trans (Nat.zero_add _).symm) h'
    refine ⟨v, hmore _ _ (body_of_flush ?_ (hc ▸ hv))⟩
    exact (List.cons.inj hu).1 ▸ Token.isMark_iff.1 (hbegin a rfl)

/-- **Templates concatenate**: if the second one is empty or begins with a tag, its statements follow
those of the first one. The numbers of their made-up names go on behind the names that have been made
up for the first one. With known extensions these are as many as its case distinctions, and if no
extension makes up names, there are none. -/
theorem Environment.parseStream_append (name filename : Option String)
    (h : env.parseStream (.ofTokens first name₁ filename₁) = .ok body)
    (h' : env.parseStream (.ofTokens second name₂ filename₂) = .ok body') :
    ∃ t, env.grammar.parseBody none { stream := .ofTokens first name₁ filename₁ } = .ok body t ∧
      env.parseStream (.ofTokens (first ++ second) name filename) =
        .ok (body ++ body'.map (Stmt.renamed (renumbered t.madeUp))) ∧
      ((∀ y ∈ env.extensions, y.Known) → t.madeUp = caseTags first) ∧
      (Conduct.still.ObeyedByExtensions env →
        env.parseStream (.ofTokens (first ++ second) name filename) = .ok (body ++ body')) := by
  obtain ⟨t, ht⟩ := parseStream_eq_ok.1 h
  have happend := body_append henv hfirst hsecond hbegin name filename ht h'
  refine ⟨t, ht, happend, fun hknown => madeUp_of_stream hknown hfirst ht, fun hstill => ?_⟩
  have hnone : t.madeUp = 0 := madeUp_of_body hstill ht
  rw [hnone, map_renumbered_zero] at happend
  exact happend

end Append

/-- Two case distinctions, of which the second one compares with the second made-up name, and a text
before a tag where there are none. -/
theorem Environment.parseStream_append_case :
    let env : Environment := { extensions := [.case] }
    let token (k : Token.Kind) : Token := ⟨k, 1, ⟨0, 0⟩⟩
    let tokens (subject : String) : List Token :=
      [.mark .blockBegin, .name "case", .name subject, .mark .blockEnd, .mark .blockBegin, .name "when",
        .integer 1, .mark .blockEnd, .mark .blockBegin, .name "endcase", .mark .blockEnd].map token
    let body (subject name : String) : List Stmt :=
      [.assign (.internalName name 1) (.name subject .load 1) 1,
        .ifThen (.compare (.internalName name 1) [⟨.eq, .const (.int 1) 1⟩] 1) [] [] 1]
    let text := [token (.data "a")]
    let tag := [.mark .blockBegin, .name "break", .mark .blockEnd].map token
    (∀ x ∈ env.extensions, x.Known) ∧
      env.parseStream (.ofTokens (tokens "a") none none) = .ok (body "a" "$fi1") ∧
      env.parseStream (.ofTokens (tokens "b") none none) = .ok (body "b" "$fi1") ∧
      env.parseStream (.ofTokens (tokens "a" ++ tokens "b") none none) =
        .ok (body "a" "$fi1" ++ body "b" "$fi2") ∧
      ({} : Environment).parseStream (.ofTokens (text ++ tag) none none) =
        .ok ([.output [.templateData "a" 1] 1] ++ [.breakLoop 1]) := by
  intro env token tokens body text tag
  have henv : ∀ x ∈ env.extensions, x.Known := List.forall_mem_singleton.2 .case
  have hfirst : env.parseStream (.ofTokens (tokens "a") none none) = .ok (body "a" "$fi1") := by cbv
  have hsecond : env.parseStream (.ofTokens (tokens "b") none none) = .ok (body "b" "$fi1") := by cbv
  have hends (subject : String) : ∀ c ∈ tokens subject, c.isEnd = false := by
    simp [tokens, token, Token.isEnd, Token.isMark, Token.type, Token.Kind.type]
  have hbegin : ∀ c ∈ (tokens "b").head?, c.isMark .blockBegin = true := by
    rintro _ ⟨⟩
    rfl
  have hrenamed : (body "b" "$fi1").map (Stmt.renamed (renumbered (caseTags (tokens "a")))) =
      body "b" "$fi2" := by cbv
  obtain ⟨t, -, hcases, hmadeUp, -⟩ :=
    parseStream_append (.of_known henv) (hends "a") (hends "b") hbegin none none hfirst hsecond
  rw [hmadeUp henv, hrenamed] at hcases
  have hnone : ∀ x ∈ ({} : Environment).extensions, x.Known := List.forall_mem_nil _
  have htext : ({} : Environment).parseStream (.ofTokens text none none) =
      .ok [.output [.templateData "a" 1] 1] := by cbv
  have htag : ({} : Environment).parseStream (.ofTokens tag none none) = .ok [.breakLoop 1] := by cbv
  have hbegin' : ∀ c ∈ tag.head?, c.isMark .blockBegin = true := by
    rintro _ ⟨⟩
    rfl
  obtain ⟨-, -, -, -, hplain⟩ :=
    parseStream_append (.of_known hnone) (by decide) (by decide) hbegin' none none htext htag
  exact ⟨henv, hfirst, hsecond, hcases, hplain (List.forall_mem_nil _)⟩

/-- **An extension that is not local**: what it stands for depends on whether another tag follows
its own. -/
def Extension.peeking : Extension where
  name := "peek"
  tags := ["peek"]
  parse _ := do
    let line := (← advance).line
    if (← look).isMark .blockBegin then
      return .single (.continueLoop line)
    else
      return .single (.breakLoop line)

/-- **Extensions have to be local.** The tag `peek` stands for a `break` at the end of a template. In
front of a second template it stands for a `continue`, although no names are made up. -/
theorem Environment.parseStream_append_peeking :
    let env : Environment := { extensions := [.peeking] }
    let tag : List Token := [⟨.mark .blockBegin, 1, ⟨0, 0⟩⟩, ⟨.name "peek", 1, ⟨0, 0⟩⟩,
      ⟨.mark .blockEnd, 1, ⟨0, 0⟩⟩]
    .case ∉ env.extensions ∧ (∀ c ∈ tag, c.isEnd = false) ∧
      (∀ c ∈ tag.head?, c.isMark .blockBegin = true) ∧
      env.parseStream (.ofTokens tag none none) = .ok [.breakLoop 1] ∧
      env.parseStream (.ofTokens (tag ++ tag) none none) = .ok [.continueLoop 1, .breakLoop 1] ∧
      env.parseStream (.ofTokens (tag ++ tag) none none) ≠ .ok ([.breakLoop 1] ++ [.breakLoop 1]) := by
  intro env tag
  have hcase : .case ∉ env.extensions := by
    intro hmem
    have hname := congrArg Extension.name (List.mem_singleton.1 hmem)
    exact absurd hname (by decide)
  have hbegin : ∀ c ∈ tag.head?, c.isMark .blockBegin = true := by
    rintro _ ⟨⟩
    rfl
  have halone : env.parseStream (.ofTokens tag none none) = .ok [.breakLoop 1] := by cbv
  have hboth : env.parseStream (.ofTokens (tag ++ tag) none none) =
      .ok [.continueLoop 1, .breakLoop 1] := by cbv
  refine ⟨hcase, by decide, hbegin, halone, hboth, fun h => ?_⟩
  have hstmts := (List.cons.inj (Except.ok.inj (hboth.symm.trans h))).1
  cases hstmts

end LiquidTemplate
