import LiquidTemplate.Proofs.RoundTrip.Arguments
import LiquidTemplate.Proofs.Success

/-!
# Filters and tests

The loop behind an operand reads filters by a loop of its own, which goes on as long as there are
pipes. It makes no difference whether that inner loop or the outer one goes on.

* `reads_dottedName`: a name with dots.
* `leads_filter`, `leads_test`: what a filter and a test do to the operand before them.
-/

namespace LiquidTemplate

open LiquidTemplate.Parser LiquidTemplate.Grammar

variable {env : Environment} {st : Style} {n line : Nat} {g : Grammar} {e x : Expr}
  {a b rest ks : List Token.Kind} {k l : Token.Kind} {post : Expr → Prop} {s t : ParserState}

/-! ### Names with dots -/

/-- Parts with dots between them are joined as the text of the whole name. -/
theorem foldl_dots (cs : List Char) (css : List (List Char)) :
    (css.map String.ofList).foldl (fun name part => name ++ "." ++ part) (String.ofList cs) =
      String.ofList (Text.join ['.'] (cs :: css)) := by
  induction css generalizing cs with
  | nil => rfl
  | cons ds css ih =>
      have hjoin : Text.join ['.'] ((cs ++ ['.'] ++ ds) :: css) =
          cs ++ ['.'] ++ Text.join ['.'] (ds :: css) := by
        cases css <;> simp [Text.join]
      have hhead : String.ofList cs ++ "." ++ String.ofList ds =
          String.ofList (cs ++ ['.'] ++ ds) := by
        rw [String.ofList_append, String.ofList_append]
      have hcons : Text.join ['.'] (cs :: ds :: css) = cs ++ ['.'] ++ Text.join ['.'] (ds :: css) :=
        rfl
      rw [List.map_cons, List.foldl_cons, hhead, ih, hjoin, hcons]

/-- The rest of a name with dots. -/
theorem reads_dottedName {first : String} {parts : List String} (hk : k ≠ .symbol .dot) :
    Reads n (parseDottedName first)
      (following (.symbol .dot) true (parts.map fun part => [.name part]) ++ k :: rest) (k :: rest)
      (fun name => name = parts.foldl (fun name part => name ++ "." ++ part) first) := by
  refine (Leads.items (.symbol .dot) true (fun _ => True) trivial (fun part => [.name part])
    (fun done name => name = done.foldl (fun name part => name ++ "." ++ part) first) parts ?_
    rfl fun _ => ⟨_, _, rfl, trivial⟩).reads ?_
  · intro done part more _ _ hy k rest _
    obtain rfl := hy
    refine Leads.round ?_ (by simp)
    refine Reads.skips nofun rfl ?_
    refine Reads.demand nofun rfl fun line span => ?_
    exact Reads.pure ⟨_, rfl, by simp [Token.nameText, Token.name?]⟩
  · intro _ hy
    obtain rfl := hy
    have hdot : k.fits (.type (.symbol .dot)) = false := by
      cases k <;> simp_all [Token.Kind.fits, Token.Kind.type]
    refine Reads.stop (Reads.stays hdot ?_)
    exact Reads.pure ⟨_, rfl, rfl⟩

/-- **A name with dots** is read part by part. -/
theorem reads_name {β : Type} {f : Token → String → Parser β} {post : β → Prop} {name : String}
    (hk : k ≠ .symbol .dot) (h : ∀ t, Reads n (f t name) (k :: rest) b post) :
    Reads n (do
        let t ← expectAnyName
        let name ← parseDottedName t.nameText
        f t name)
      (nameKinds name ++ k :: rest) b post := by
  obtain ⟨cs, css, hsplit⟩ := List.exists_cons_of_ne_nil (Text.split_ne_nil ['.'] name.toList)
  have hname : (css.map String.ofList).foldl (fun name part => name ++ "." ++ part)
      (String.ofList cs) = name := by
    rw [foldl_dots, ← hsplit, Text.join_split, String.ofList_toList]
  rw [nameKinds, nameParts, hsplit, List.map_cons, List.map_cons]
  refine Reads.demand (by rintro ⟨⟩) rfl fun line span => ?_
  refine (reads_dottedName hk).bind ?_
  intro _ hy
  obtain rfl := hy
  have hfirst : Token.nameText ⟨.name (String.ofList cs), line, span⟩ = String.ofList cs := rfl
  rw [hfirst, hname]
  exact h _

/-- The first part of a name with dots. -/
theorem nameKinds_eq (name : String) :
    ∃ part more, nameKinds name = .name part :: more ∧ (nameParts name).head? = some part := by
  obtain ⟨cs, css, hsplit⟩ := List.exists_cons_of_ne_nil (Text.split_ne_nil ['.'] name.toList)
  rw [nameKinds, nameParts, hsplit]
  exact ⟨_, _, rfl, rfl⟩

/-! ### Filters -/

/-- Filters end where there is no pipe. -/
theorem reads_filters_end (hk : k ≠ .symbol .pipe) (x : Expr) :
    Reads n (parseFilters g (some x) false) (k :: rest) (k :: rest) (fun y => y = x) := by
  have hpipe : k.fits (.type (.symbol .pipe)) = false := by
    cases k <;> simp_all [Token.Kind.fits, Token.Kind.type]
  refine Reads.stop (Reads.stays hpipe ?_)
  exact Reads.pure ⟨x, rfl, rfl⟩

/-- The first of several filters leads to the loop over those behind it. -/
theorem leads_pipe (h : Reads n (parseFilterName g (some x)) a (k :: rest) post)
    (hlt : rest.length < a.length) :
    Leads n (parseFilters g (some x) false) (fun y => parseFilters g (some y) false)
      (.symbol .pipe :: a) (k :: rest) post := by
  have hround : Leads n (parseFilters g (some x) false) (fun y => parseFilters g y.1 y.2)
      (.symbol .pipe :: a) (k :: rest) (fun y => ∃ e, y = (some e, false) ∧ post e) := by
    refine Leads.round ?_ (by simpa using hlt)
    refine Reads.skips nofun rfl ?_
    exact h.bind fun y hy => Reads.pure ⟨_, rfl, y, rfl, hy⟩
  intro s hs hw
  obtain ⟨_, t, hy, ht, hsuf, y, rfl, hpost⟩ := hround s hs hw
  exact ⟨y, t, hy, ht, hsuf, hpost⟩

/-- The end of the filters is no pipe, and consumes nothing. -/
theorem parseNextFilter_inr {node : Option Expr × Bool} {y : Expr}
    (h : parseNextFilter g node s = .ok (.inr y) t) :
    t = s ∧ s.stream.current.fits (.type (.symbol .pipe)) = false := by
  obtain ⟨node, bare⟩ := node
  cases bare with
  | true =>
      obtain ⟨e, u, _, hu⟩ := bind_eq_ok.1 h
      nomatch hu
  | false =>
      obtain ⟨found, u, hskip, hu⟩ := bind_eq_ok.1 h
      cases found with
      | true =>
          obtain ⟨e, v, _, hv⟩ := bind_eq_ok.1 hu
          nomatch hv
      | false =>
          obtain ⟨rfl, hfit⟩ := skipIf_eq_false.1 hskip
          cases node with
          | none => nomatch hu
          | some e =>
              obtain ⟨_, rfl⟩ : e = y ∧ u = t := by
                simpa using (EStateM.Result.ok.inj hu)
              exact ⟨rfl, hfit⟩

/-- **Filters consume** the pipe before the first of them. -/
theorem parseFilters_remaining {y : Expr} (hs : s.ahead = .symbol .pipe :: a)
    (h : parseFilters g (some x) false s = .ok y t) : t.remaining < s.remaining := by
  have hpipe : s.stream.current.fits (.type (.symbol .pipe)) = true := by
    rw [s.current_eq hs]
    rfl
  rcases repeatFrom_eq_ok.1 h with hlast | ⟨node, u, _, hlt, hrest⟩
  · rw [(parseNextFilter_inr hlast).2] at hpipe
    nomatch hpipe
  · obtain ⟨node, v, hv, hlast⟩ := repeatFrom_induction
      (fun _ (v : ParserState) => v.remaining < s.remaining)
      (fun _ _ _ _ hinv _ hlt => Nat.lt_trans hlt hinv) hlt hrest
    rw [(parseNextFilter_inr hlast).1]
    exact hv

/-- At a pipe the outer loop leaves all filters to the inner one. -/
theorem parseTrailers_pipe (hs : s.ahead = .symbol .pipe :: a) (x : Expr) :
    parseTrailers g x s =
      match parseFilters g (some x) false s with
      | .error e t => .error e t
      | .ok y t =>
        if t.remaining < s.remaining then parseTrailers g y t else fail .nestedTooDeep t := by
  have hpipe : s.stream.current.isSymbol .pipe = true := by rw [s.current_eq hs]; rfl
  have hround : parseNextTrailer g x s =
      match parseFilters g (some x) false s with
      | .error e t => .error e t
      | .ok y t => .ok (.inl y) t := by
    show (if s.stream.current.isSymbol .pipe then _ else _ : Parser (Expr ⊕ Expr)) s = _
    rw [if_pos hpipe]
    show EStateM.bind (parseFilters g (some x) false) _ s = _
    rw [EStateM.bind]
    cases parseFilters g (some x) false s <;> rfl
  rw [parseTrailers, repeatFrom, Loop.iterate, hround]
  cases parseFilters g (some x) false s <;> rfl

/-- **A filter** is one round of the loop behind an operand. -/
theorem leads_filter (h : Reads n (parseFilterName g (some x)) (a ++ k :: rest) (k :: rest) post) :
    Leads n (parseTrailers g x) (parseTrailers g) (.symbol .pipe :: (a ++ k :: rest)) (k :: rest)
      post := by
  have hlt : rest.length < (a ++ k :: rest).length := by
    simp only [List.length_cons, List.length_append]
    omega
  have hsize {s t : ParserState} (hs : s.ahead = .symbol .pipe :: (a ++ k :: rest))
      (ht : t.ahead = k :: rest) : t.remaining < s.remaining := by
    rw [ParserState.remaining_eq, ParserState.remaining_eq, ht, hs]
    simp only [List.length_cons, List.length_append]
    omega
  intro s hs hw
  obtain ⟨y, t, hfilters, ht, hsuf, hpost⟩ := leads_pipe h hlt s hs hw
  have hfilters : parseFilters g (some x) false s = parseFilters g (some y) false t := hfilters
  rw [parseTrailers_pipe hs, hfilters]
  by_cases hpipe : k = .symbol .pipe
  · refine ⟨y, t, ?_, ht, hsuf, hpost⟩
    subst hpipe
    rw [parseTrailers_pipe ht]
    -- Both loops go on with the filters behind this one, and these consume tokens.
    cases hnext : parseFilters g (some y) false t with
    | error e u => rfl
    | ok z u =>
        have hut := parseFilters_remaining ht hnext
        show (if _ then _ else _ : EStateM.Result SyntaxError ParserState Expr) = if _ then _ else _
        rw [if_pos hut, if_pos (Nat.lt_trans hut (hsize hs ht))]
  · obtain ⟨z, u, hz, hu, hsuf', rfl⟩ := reads_filters_end (g := g) hpipe y t ht (Nat.le_refl _)
    refine ⟨z, u, ?_, hu, hsuf'.trans hsuf, hpost⟩
    rw [hz]
    exact if_pos (hsize hs hu)

/-- **The name and the arguments** of a filter. -/
theorem reads_filterName (name : String) {args : Arguments Expr} (node : Option Expr)
    (rest : List Token.Kind)
    (h : ∀ e ∈ args.values, Legible env e (e.written st)) (hk : k.Stops 10) (hsticks : ¬ k.Sticks) :
    Reads n (parseFilterName (below env n) node)
      (nameKinds name ++
        ((if args.isEmpty && !st.lists then [] else Expr.writtenArguments st args) ++ k :: rest))
      (k :: rest)
      (fun x => ∃ args' line, x = .filter node name args' line ∧
        Expr.argumentsWithoutLines args' = Expr.argumentsWithoutLines args) := by
  by_cases hempty : (args.isEmpty && !st.lists) = true
  · rw [if_pos hempty, List.nil_append]
    refine reads_name (fun hdot => ?_) fun t => ?_
    · have hle : 10 ≤ 11 := by omega
      exact hk.ne rfl hle hdot
    have hform (line : Nat) (span : Span) : ArgumentForm.ofToken? ⟨k, line, span⟩ = none := by
      rw [ArgumentForm.ofToken?, if_neg, if_neg]
      · intro hc
        obtain rfl : k = .symbol .colon := Token.isSymbol_iff.1 hc
        exact hsticks trivial
      · intro hp
        have hle : 10 ≤ 11 := by omega
        exact hk.ne rfl hle (Token.isSymbol_iff.1 hp)
    have hargs : Reads n (parseOptionalArguments (below env n)) (k :: rest) (k :: rest)
        (fun x => x = {}) := by
      refine Reads.see fun line span => ?_
      rw [hform]
      exact Reads.pure rfl
    refine hargs.bind ?_
    intro _ hy
    obtain rfl := hy
    refine Reads.pure ⟨{}, t.line, rfl, ?_⟩
    obtain ⟨⟨⟨hp, hw⟩, hs⟩, hd⟩ : ((args.positional = [] ∧ args.keywords = []) ∧ args.spread = none) ∧
        args.spreadKeywords = none := by
      simpa [Arguments.isEmpty] using (Bool.and_eq_true_iff.1 hempty).1
    simp [hp, hw, hs, hd]
  · rw [if_neg hempty]
    have hargs : Reads n (parseOptionalArguments (below env n))
        (Expr.writtenArguments st args ++ k :: rest) (k :: rest)
        (fun x => Expr.argumentsWithoutLines x = Expr.argumentsWithoutLines args) := by
      have hlist := reads_arguments (n := n) (k :: rest) h
      obtain ⟨l, hl⟩ := writtenArguments_eq st args
      rw [hl] at hlist ⊢
      refine Reads.see fun line span => ?_
      exact hlist
    obtain ⟨l, hl⟩ := writtenArguments_eq st args
    rw [hl] at hargs ⊢
    refine reads_name nofun fun t => hargs.bind fun x hx => ?_
    exact Reads.pure ⟨x, t.line, rfl, hx⟩

/-! ### Tests -/

/-- **A test** is one round of the loop behind an operand. -/
theorem leads_test {name : String} {args : Arguments Expr}
    (h : ∀ e ∈ args.values, Legible env e (e.written st))
    (hnot : (nameParts name).head? ≠ some "not") :
    Leads n (parseTrailers (below env n) x) (parseTrailers (below env n))
      (.name "is" :: (nameKinds name ++ (Expr.writtenArguments st args ++ k :: rest))) (k :: rest)
      (fun y => ∃ args' line, y = .test x name args' line ∧
        Expr.argumentsWithoutLines args' = Expr.argumentsWithoutLines args) := by
  have hargs : Reads n (parseTestArguments (below env n))
      (Expr.writtenArguments st args ++ k :: rest) (k :: rest)
      (fun x => Expr.argumentsWithoutLines x = Expr.argumentsWithoutLines args) := by
    have hlist := reads_arguments (n := n) (k :: rest) h
    obtain ⟨l, hl⟩ := writtenArguments_eq st args
    rw [hl] at hlist ⊢
    refine Reads.see fun line span => ?_
    exact hlist
  have hname (line : Nat) : Reads n (do
        let t ← expectAnyName
        let name ← parseDottedName t.nameText
        let args ← parseTestArguments (below env n)
        return .test x name args line : Parser Expr)
      (nameKinds name ++ (Expr.writtenArguments st args ++ k :: rest)) (k :: rest)
      (fun y => ∃ args' line, y = .test x name args' line ∧
        Expr.argumentsWithoutLines args' = Expr.argumentsWithoutLines args) := by
    obtain ⟨l, hl⟩ := writtenArguments_eq st args
    rw [hl] at hargs ⊢
    refine reads_name nofun fun t => hargs.bind fun y hy => ?_
    exact Reads.pure ⟨y, line, rfl, hy⟩
  obtain ⟨part, more, hpart, hhead⟩ := nameKinds_eq name
  have hskip : Token.Kind.fits (.name part) (.name "not") = false := by
    refine beq_eq_false_iff_ne.2 fun hp => hnot ?_
    rw [hhead, hp]
  have hlt := length_behind_lt (.name "is") (nameKinds name ++ Expr.writtenArguments st args)
    (k :: rest)
  rw [List.append_assoc] at hlt
  refine Leads.round ?_ hlt
  refine Reads.see fun line span => ?_
  have htest : Reads n (parseTest (below env n) x)
      (.name "is" :: (nameKinds name ++ (Expr.writtenArguments st args ++ k :: rest))) (k :: rest)
      (fun y => ∃ args' line, y = .test x name args' line ∧
        Expr.argumentsWithoutLines args' = Expr.argumentsWithoutLines args) := by
    refine Reads.take nofun fun line span => ?_
    have hname := hname line
    rw [hpart] at hname ⊢
    refine Reads.stays hskip ?_
    exact hname
  exact htest.bind fun y hy => Reads.pure ⟨y, rfl, hy⟩

end LiquidTemplate
