import LiquidTemplate.Proofs.Forms.Layouts
import LiquidTemplate.Proofs.Operands.Enclosed

/-!
# Argument lists in order

An argument list succeeds exactly if its arguments are in order: those without a name, those with
one, at most one list and at most one dictionary that are spread out. The two forms of a list differ
in their ends only.

* `Arguments.toList`, `Arguments.Admits`: arguments in order, and what can stand behind them.
* `EnclosedArgument`: an argument whose value is in parentheses.
* `reads_enclosedArgument`, `stuck_enclosedArgument`: one more argument, in order or not.
* `leads_enclosedArguments`: the loop over the arguments of a list in order.
* `argument_lists`: which lists are read, and what they are.
-/

namespace LiquidTemplate

open LiquidTemplate.Parser LiquidTemplate.Grammar

variable {env : Environment} {form : ArgumentForm} {j n line : Nat} {g : Grammar}
  {s : ParserState} {a b rest : List Token.Kind} {k : Token.Kind} {later : Bool} {args : Arguments Expr}
  {y : Arguments Expr × Bool}

/-! ### Tokens that are not read -/

namespace Parser

variable {α β σ : Type} {p : Parser α} {post : α → Prop}

/-- **Stuck before tokens**: a parser that does not succeed where they are ahead. -/
def StuckBefore (p : Parser α) (a : List Token.Kind) : Prop :=
  ∀ s, s.ahead = a → Stuck p s

namespace StuckBefore

theorem bind {f : α → Parser β} (h : StuckBefore p a) : StuckBefore (p >>= f) a :=
  fun s hs => (h s hs).bind

/-- Behind what is read. -/
theorem after {f : α → Parser β} (hp : ∀ n, Reads n p a b post)
    (h : ∀ x, post x → StuckBefore (f x) b) : StuckBefore (p >>= f) a := by
  intro s hs z v hz
  obtain ⟨x, t, hx, ht, -, hpost⟩ := hp s.weight s hs (Nat.le_refl _)
  obtain ⟨x', t', hx', hz⟩ := bind_eq_ok.1 hz
  obtain ⟨rfl, rfl⟩ := EStateM.Result.ok.inj (hx.symm.trans hx')
  exact h x hpost t ht z v hz

/-- Behind the way to a loop. -/
theorem leads {p : Parser β} {loop : σ → Parser β} {post : σ → Prop}
    (hp : ∀ n, Leads n p loop a b post) (h : ∀ x, post x → StuckBefore (loop x) b) :
    StuckBefore p a := by
  intro s hs z v hz
  obtain ⟨x, t, hx, ht, -, hpost⟩ := hp s.weight s hs (Nat.le_refl _)
  exact h x hpost t ht z v (hx ▸ hz)

theorem see {f : Token → Parser β} (h : ∀ line span, StuckBefore (f ⟨k, line, span⟩) (k :: a)) :
    StuckBefore (current >>= f) (k :: a) := by
  refine after (fun _ => reads_current) fun tok htok => ?_
  obtain ⟨line, span, rfl⟩ := htok
  exact h line span

theorem symbol {f : Bool → Parser β} (y : Symbol)
    (h : StuckBefore (f (k.type == .symbol y)) (k :: a)) :
    StuckBefore (atSymbol y >>= f) (k :: a) := by
  refine after (fun _ => reads_atSymbol y) fun found hfound => ?_
  rw [hfound]
  exact h

/-- What is demanded of the arguments so far. -/
theorem require {f : Unit → Parser β} {ok : Bool} (h : ok = true → StuckBefore (f ()) a) :
    StuckBefore (Grammar.require ok line >>= f) a := by
  cases ok with
  | true => exact h rfl
  | false => exact fun _ _ => stuck_failAt.bind

/-- In the next round of a repetition. -/
theorem repeatFrom {step : σ → Parser (σ ⊕ β)} {x : σ} (h : StuckBefore (step x) a) :
    StuckBefore (repeatFrom step x) a := by
  intro s hs z v hz
  rcases repeatFrom_eq_ok.1 hz with hlast | ⟨x', u, hround, -⟩
  · exact h s hs _ _ hlast
  · exact h s hs _ _ hround

end StuckBefore

end Parser

/-! ### Arguments in order -/

namespace Arguments

variable {a b : Arguments Expr} {x : Argument} {xs : List Argument}

/-- **The arguments in order**: those without a name, those with one, the list and the dictionary
that are spread out. -/
def toList (a : Arguments Expr) : List Argument :=
  a.positional.map .positional ++ a.keywords.map (fun w => .keyword w.key w.value) ++
    a.spread.toList.map .spread ++ a.spreadKeywords.toList.map .spreadKeywords

/-- **What can stand behind** some arguments. -/
def Admits (a : Arguments Expr) : Argument → Prop
  | .positional _ => a.keywords = [] ∧ a.spread = none ∧ a.spreadKeywords = none
  | .keyword .. | .spread _ => a.spread = none ∧ a.spreadKeywords = none
  | .spreadKeywords _ => a.spreadKeywords = none

/-- What is admitted comes last. -/
theorem toList_add (h : a.Admits x) : (a.add x).toList = a.toList ++ [x] := by
  obtain ⟨ps, kws, s, d⟩ := a
  cases x with
  | positional e =>
    obtain ⟨rfl, rfl, rfl⟩ : kws = [] ∧ s = none ∧ d = none := h
    simp [add, toList]
  | keyword key e =>
    obtain ⟨rfl, rfl⟩ : s = none ∧ d = none := h
    simp [add, toList]
  | spread e =>
    obtain ⟨rfl, rfl⟩ : s = none ∧ d = none := h
    simp [add, toList]
  | spreadKeywords e =>
    obtain rfl : d = none := h
    simp [add, toList]

theorem eq_nil_of_toList (h : a.toList = []) : a = {} := by
  obtain ⟨ps, kws, s, d⟩ := a
  simp only [toList, List.append_eq_nil_iff, List.map_eq_nil_iff, Option.toList_eq_nil_iff] at h
  obtain ⟨⟨⟨rfl, rfl⟩, rfl⟩, rfl⟩ := h
  rfl

/-- **The last argument** of some is admitted behind those before it. -/
theorem exists_of_toList_concat (h : b.toList = xs ++ [x]) :
    ∃ a : Arguments Expr, a.toList = xs ∧ a.Admits x ∧
      Expr.argumentsWithoutLines (a.add x) = Expr.argumentsWithoutLines b := by
  obtain ⟨ps, kws, s, d⟩ := b
  -- The last argument is that of the last part in which there is one.
  have hlast (a : Arguments Expr) (y : Argument)
      (hy : (Arguments.mk ps kws s d).toList = a.toList ++ [y]) : a.toList = xs ∧ y = x := by
    obtain ⟨hxs, hx⟩ := List.append_inj' (hy.symm.trans h) rfl
    exact ⟨hxs, List.singleton_inj.1 hx⟩
  cases d with
  | some e =>
    obtain ⟨hxs, rfl⟩ := hlast ⟨ps, kws, s, none⟩ (.spreadKeywords e) (by simp [toList])
    exact ⟨_, hxs, rfl, rfl⟩
  | none =>
    cases s with
    | some e =>
      obtain ⟨hxs, rfl⟩ := hlast ⟨ps, kws, none, none⟩ (.spread e) (by simp [toList])
      exact ⟨_, hxs, ⟨rfl, rfl⟩, rfl⟩
    | none =>
      rcases List.eq_nil_or_concat' kws with rfl | ⟨kws, w, rfl⟩
      · rcases List.eq_nil_or_concat' ps with rfl | ⟨ps, e, rfl⟩
        · exact absurd h (by simp [toList])
        · obtain ⟨hxs, rfl⟩ := hlast ⟨ps, [], none, none⟩ (.positional e) (by simp [toList])
          exact ⟨_, hxs, ⟨rfl, rfl, rfl⟩, rfl⟩
      · obtain ⟨hxs, rfl⟩ := hlast ⟨ps, kws, none, none⟩ (.keyword w.key w.value) (by simp [toList])
        exact ⟨_, hxs, ⟨rfl, rfl⟩, by simp [add]⟩

/-- **Arguments out of order** have a first one that is not admitted. -/
theorem exists_of_not_toList (h : ¬ ∃ a : Arguments Expr, xs = a.toList) :
    ∃ (a : Arguments Expr) (x : Argument) (more : List Argument),
      xs = a.toList ++ x :: more ∧ ¬ a.Admits x := by
  induction xs using List.reverseRecOn with
  | nil => exact absurd ⟨{}, rfl⟩ h
  | append_singleton xs x ih =>
    by_cases hxs : ∃ a : Arguments Expr, xs = a.toList
    · obtain ⟨a, rfl⟩ := hxs
      exact ⟨a, x, [], rfl, fun hx => h ⟨a.add x, (toList_add hx).symm⟩⟩
    · obtain ⟨a, z, more, rfl, hz⟩ := ih hxs
      exact ⟨a, z, more ++ [x], by simp, hz⟩

end Arguments

/-- An argument with another value. -/
def Argument.withValue (e : Expr) : Argument → Argument
  | positional _ => positional e
  | keyword key _ => keyword key e
  | spread _ => spread e
  | spreadKeywords _ => spreadKeywords e

theorem Argument.withValue_value (x : Argument) : x.withValue x.value = x := by
  cases x <;> rfl

/-- What is read so far admits the same arguments. -/
theorem ReadSoFar.admits (h : ReadSoFar args later y) (x : Argument) :
    y.1.Admits x ↔ args.Admits x := by
  have h := h.1
  simp only [Expr.argumentsWithoutLines_eq_map, Arguments.mk.injEq] at h
  obtain ⟨-, hk, hs, hd⟩ := h
  have hk : y.1.keywords = [] ↔ args.keywords = [] := by
    rw [← List.map_eq_nil_iff, hk, List.map_eq_nil_iff]
  have hs : y.1.spread = none ↔ args.spread = none := by
    rw [← Option.map_eq_none_iff, hs, Option.map_eq_none_iff]
  have hd : y.1.spreadKeywords = none ↔ args.spreadKeywords = none := by
    rw [← Option.map_eq_none_iff, hd, Option.map_eq_none_iff]
  cases x <;> simp only [Arguments.Admits, hk, hs, hd]

/-! ### Arguments in parentheses -/

/-- **An argument with its value in parentheses**: what it is, and the tokens between them. -/
structure EnclosedArgument where
  argument : Argument
  inner : List Token.Kind

namespace EnclosedArgument

/-- The value. -/
def value (x : EnclosedArgument) : Enclosed :=
  ⟨x.inner, x.argument.value⟩

/-- The tokens of the argument. -/
def written (x : EnclosedArgument) : List Token.Kind :=
  match x.argument with
  | .positional _ => parens x.inner
  | .keyword key _ => .name key :: .symbol .assign :: parens x.inner
  | .spread _ => .symbol .mul :: parens x.inner
  | .spreadKeywords _ => .symbol .pow :: parens x.inner

/-- Whether filters can stand on the value. -/
def filters (form : ArgumentForm) (x : EnclosedArgument) : Bool :=
  match x.argument with
  | .positional _ | .keyword .. => form.filters
  | .spread _ | .spreadKeywords _ => true

/-- No argument begins like the end of a list. -/
theorem written_eq (x : EnclosedArgument) : ∃ l a, x.written = l :: a ∧
    ∀ (form : ArgumentForm) (line : Nat) (span : Span), form.isClosedBy ⟨l, line, span⟩ = false := by
  obtain ⟨x, ks⟩ := x
  cases x <;> exact ⟨_, _, rfl, fun form _ _ => by cases form <;> rfl⟩

end EnclosedArgument

variable {x : EnclosedArgument}

/-- **One more argument** that is admitted, whatever its value is read from. -/
theorem reads_argument {value : Expr} (hx : args.Admits x.argument) (hy : ReadSoFar args later y)
    (hvalue : Reads n (g.expression true (x.filters form)) (parens x.inner ++ a) b value.Alike) :
    Reads n (parseArgument g form line y.1) (x.written ++ a) b
      (fun z => Expr.argumentsWithoutLines z =
        Expr.argumentsWithoutLines (args.add (x.argument.withValue value))) := by
  have hadmits := (hy.admits x.argument).2 hx
  obtain ⟨argument, ks⟩ := x
  have hy := hy.1
  simp only [Expr.argumentsWithoutLines_eq_map, Arguments.mk.injEq] at hy ⊢
  cases argument with
  | positional e =>
    refine (reads_positional hadmits.1 hadmits.2.1 hadmits.2.2 hvalue).imp ?_
    intro _ hz
    obtain ⟨value, hv, rfl⟩ := hz
    simp [Arguments.add, Argument.withValue, hy, hv.eq]
  | keyword key e =>
    refine (reads_keyword hadmits.1 hadmits.2 hvalue).imp ?_
    intro _ hz
    obtain ⟨value, line', hv, rfl⟩ := hz
    simp [Arguments.add, Argument.withValue, hy, hv.eq]
  | spread e =>
    refine (reads_spread hadmits.1 hadmits.2 hvalue).imp ?_
    intro _ hz
    obtain ⟨value, hv, rfl⟩ := hz
    simp [Arguments.add, Argument.withValue, hy, hv.eq]
  | spreadKeywords e =>
    refine (reads_spreadKeywords hadmits hvalue).imp ?_
    intro _ hz
    obtain ⟨value, hv, rfl⟩ := hz
    simp [Arguments.add, Argument.withValue, hy, hv.eq]

/-- **No more argument** that is not admitted. -/
theorem stuck_enclosedArgument (hx : ¬ args.Admits x.argument) (hy : ReadSoFar args later y)
    (rest : List Token.Kind) :
    StuckBefore (parseArgument g form line y.1) (x.written ++ rest) := by
  have hnot := mt (hy.admits x.argument).1 hx
  obtain ⟨argument, ks⟩ := x
  cases argument with
  | positional e =>
    refine StuckBefore.symbol .mul (StuckBefore.symbol .pow ?_)
    refine StuckBefore.require fun hspread => StuckBefore.see fun line' span => ?_
    refine StuckBefore.after (fun _ => reads_look_any) fun _ _ => ?_
    refine StuckBefore.require fun hkeywords => absurd ?_ hnot
    simpa [Arguments.Admits, and_assoc] using And.intro hkeywords hspread
  | keyword key e =>
    refine StuckBefore.symbol .mul (StuckBefore.symbol .pow ?_)
    refine StuckBefore.require fun hspread => absurd ?_ hnot
    simpa [Arguments.Admits] using hspread
  | spread e =>
    refine StuckBefore.symbol .mul (StuckBefore.require fun hspread => absurd ?_ hnot)
    simpa [Arguments.Admits] using hspread
  | spreadKeywords e =>
    refine StuckBefore.symbol .mul (StuckBefore.symbol .pow ?_)
    refine StuckBefore.require fun hspread => absurd ?_ hnot
    simpa [Arguments.Admits] using hspread

/-! ### The loop over the arguments -/

/-- **One more argument** is one round. -/
theorem leads_argumentWith {value : Expr} {ks : List Token.Kind} (hx : args.Admits x.argument)
    (hy : ReadSoFar args later y)
    (hvalue : Reads n (g.expression true (x.filters form)) (parens x.inner ++ (ks ++ k :: rest))
      (k :: rest) value.Alike) :
    Leads n (argumentLoop g form line y) (argumentLoop g form line)
      ((if later then [.symbol .comma] else []) ++ (x.written ++ (ks ++ k :: rest))) (k :: rest)
      (ReadSoFar (args.add (x.argument.withValue value)) true) := by
  have hread : Reads n (parseArgument g form line y.1) _ _ _ := reads_argument hx hy hvalue
  obtain ⟨y, flag⟩ := y
  obtain rfl : flag = later := hy.2
  obtain ⟨l, a, hwritten, hopen⟩ := x.written_eq
  rw [hwritten, List.cons_append, ← List.append_assoc] at hread ⊢
  exact leads_argument flag (hopen form) hread

/-- Before its end a value in parentheses is the whole value. -/
theorem leads_enclosedArgument (hx : args.Admits x.argument) (hy : ReadSoFar args later y)
    (hvalue : x.value.ReadBy n g) (hk : k.Ends true (x.filters form)) (hj : j < n) :
    Leads j (argumentLoop g form line y) (argumentLoop g form line)
      ((if later then [.symbol .comma] else []) ++ (x.written ++ k :: rest)) (k :: rest)
      (ReadSoFar (args.add x.argument) true) := by
  have hread : Reads j (g.expression true (x.filters form)) (parens x.inner ++ ([] ++ k :: rest))
      (k :: rest) x.argument.value.Alike := hvalue.expression rest hk j hj
  have hlead : Leads j (argumentLoop g form line y) (argumentLoop g form line) _ _ _ :=
    leads_argumentWith hx hy hread
  rwa [x.argument.withValue_value] at hlead

/-- **A list goes no further** than to an argument that is not admitted. -/
theorem stuck_argumentLoop (hx : ¬ args.Admits x.argument) (hy : ReadSoFar args later y)
    (rest : List Token.Kind) :
    StuckBefore (argumentLoop g form line y)
      ((if later then [.symbol .comma] else []) ++ (x.written ++ rest)) := by
  have hstuck : StuckBefore (parseArgument g form line y.1) (x.written ++ rest) :=
    stuck_enclosedArgument hx hy rest
  obtain ⟨y, flag⟩ := y
  obtain rfl : flag = later := hy.2
  obtain ⟨l, a, hwritten, hopen⟩ := x.written_eq
  rw [hwritten] at hstuck ⊢
  have hitem : StuckBefore
      (do
        parseSeparator flag
        if form.isClosedBy (← current) then
          return .inr y
        else
          let args ← parseArgument g form line y
          return .inl (args, true) : Parser ((Arguments Expr × Bool) ⊕ Arguments Expr))
      ((if flag then [.symbol .comma] else []) ++ (l :: a ++ rest)) := by
    refine StuckBefore.after (fun _ => reads_separator flag) fun _ _ => ?_
    refine StuckBefore.see fun line' span => ?_
    rw [hopen, if_neg Bool.false_ne_true]
    exact hstuck.bind
  refine StuckBefore.repeatFrom ?_
  cases flag with
  | false =>
    refine StuckBefore.see fun line' span => ?_
    rw [hopen, if_neg Bool.false_ne_true]
    exact hitem
  | true =>
    refine StuckBefore.see fun line' span => ?_
    have hcomma : form.isClosedBy ⟨.symbol .comma, line', span⟩ = false := by cases form <;> rfl
    rw [hcomma, if_neg Bool.false_ne_true]
    exact hitem

variable {items : List EnclosedArgument} {a : Arguments Expr} {close : Token.Kind}

/-- A comma behind arguments ends the last of them. -/
theorem EnclosedArgument.ends_comma (items : List EnclosedArgument) (ks : List Token.Kind) :
    ∀ x ∈ items.getLast?, ∃ k rest,
      (if !items.isEmpty then [.symbol .comma] else []) ++ ks = k :: rest ∧
        k.Ends true (x.filters form) := by
  intro x hx
  have hne : items ≠ [] := List.ne_nil_of_mem (List.mem_of_getLast? hx)
  exact ⟨.symbol .comma, ks, by simp [hne], (Token.Kind.stops rfl 0).ends true _⟩

theorem EnclosedArgument.separated_append (items more : List EnclosedArgument) (x : EnclosedArgument)
    (ks : List Token.Kind) :
    separated (.symbol .comma) ((items ++ x :: more).map written) ++ ks =
      separated (.symbol .comma) (items.map written) ++
        ((if !items.isEmpty then [.symbol .comma] else []) ++
          (x.written ++ (following (.symbol .comma) true (more.map written) ++ ks))) := by
  rw [separated, List.map_append, following_append]
  simp [following, separated]

/-- **Arguments in order** are gone through one by one. -/
theorem leads_enclosedArguments (ha : items.map EnclosedArgument.argument = a.toList)
    (hvalues : ∀ x ∈ items, x.value.ReadBy n g)
    (hb : ∀ x ∈ items.getLast?, ∃ k rest, b = k :: rest ∧ k.Ends true (x.filters form))
    (hj : j < n) :
    Leads j (argumentLoop g form line ({}, false)) (argumentLoop g form line)
      (separated (.symbol .comma) (items.map EnclosedArgument.written) ++ b) b
      (ReadSoFar a (!items.isEmpty)) := by
  induction items using List.reverseRecOn generalizing a b with
  | nil => exact Leads.refl ⟨congrArg _ (Arguments.eq_nil_of_toList ha.symm).symm, rfl⟩
  | append_singleton items x ih =>
    rw [List.map_append] at ha
    obtain ⟨c, hc, hx, hadd⟩ := Arguments.exists_of_toList_concat ha.symm
    obtain ⟨k, rest, rfl, hk⟩ := hb x (by simp)
    rw [EnclosedArgument.separated_append, List.map_nil, following, List.nil_append]
    refine (ih hc.symm (fun z hz => hvalues z (List.mem_append_left _ hz))
      (EnclosedArgument.ends_comma items _)).trans fun y hy => ?_
    refine (leads_enclosedArgument hx hy (hvalues x (by simp)) hk hj).imp fun z hz => ?_
    exact ⟨hz.1.trans hadd, by simp [hz.2]⟩

/-- The end of a list. -/
theorem reads_argumentLoop_end {args : Arguments Expr} (hy : ReadSoFar args later y)
    (hclose : ∀ line span, form.isClosedBy ⟨close, line, span⟩ = true) :
    Reads n (argumentLoop g form line y) (close :: rest) (close :: rest)
      (fun z => Expr.argumentsWithoutLines z = Expr.argumentsWithoutLines args) := by
  obtain ⟨y, flag⟩ := y
  refine Reads.stop (Reads.see fun line' span => ?_)
  rw [hclose, if_pos rfl]
  exact Reads.pure ⟨y, rfl, hy.1⟩

/-- **The arguments of a list** that ends with `close`, and may have a comma before it. -/
theorem reads_enclosedArguments {comma : Bool} (ha : items.map EnclosedArgument.argument = a.toList)
    (hvalues : ∀ x ∈ items, x.value.ReadBy n g)
    (hclose : ∀ line span, form.isClosedBy ⟨close, line, span⟩ = true)
    (hends : comma = false → ∀ x ∈ items.getLast?, close.Ends true (x.filters form))
    (hcomma : comma = true → items ≠ []) :
    ReadsBelow n (parseArgumentList g form line)
      (separated (.symbol .comma) (items.map EnclosedArgument.written) ++
        ((if comma then [.symbol .comma] else []) ++ close :: rest))
      (close :: rest) (fun args => Expr.argumentsWithoutLines args = Expr.argumentsWithoutLines a) := by
  intro j hj
  have hb : ∀ x ∈ items.getLast?, ∃ k more,
      (if comma then [.symbol .comma] else []) ++ close :: rest = k :: more ∧
        k.Ends true (x.filters form) := by
    intro x hx
    cases comma with
    | false => exact ⟨close, rest, rfl, hends rfl x hx⟩
    | true => exact ⟨.symbol .comma, close :: rest, rfl, (Token.Kind.stops rfl 0).ends true _⟩
  refine (leads_enclosedArguments ha hvalues hb hj).reads fun y hy => ?_
  cases comma with
  | false => exact reads_argumentLoop_end hy hclose
  | true =>
    obtain ⟨y, later⟩ := y
    obtain ⟨hy, rfl⟩ : _ ∧ later = _ := hy
    have hlater : (!items.isEmpty) = true := by simpa using hcomma rfl
    rw [hlater]
    refine Reads.stop (Reads.see fun line' span => ?_)
    have hopen : form.isClosedBy ⟨.symbol .comma, line', span⟩ = false := by cases form <;> rfl
    rw [hopen, if_neg Bool.false_ne_true]
    refine (reads_separator true).bind fun _ _ => Reads.see fun line' span => ?_
    rw [hclose, if_pos rfl]
    exact Reads.pure ⟨y, rfl, hy⟩

/-! ### Whole lists -/

namespace ArgumentForm

/-- The token that opens a list. -/
def opening : ArgumentForm → Token.Kind
  | parentheses => .symbol .lParen
  | colon => .symbol .colon

/-- **The ends of a list**: its closing parenthesis, or the end of its tag. -/
def closings : ArgumentForm → List Token.Kind
  | parentheses => [.symbol .rParen]
  | colon => [.mark .variableEnd, .mark .blockEnd]

/-- What a list leaves of its end and of what stands behind. -/
def behind (form : ArgumentForm) (close : Token.Kind) (rest : List Token.Kind) : List Token.Kind :=
  match form with
  | parentheses => rest
  | colon => close :: rest

theorem isClosedBy_of_mem (h : close ∈ form.closings) (line : Nat) (span : Span) :
    form.isClosedBy ⟨close, line, span⟩ = true := by
  cases form <;> simp only [closings, List.mem_cons, List.not_mem_nil, or_false] at h
  · rw [h]
    rfl
  · rcases h with rfl | rfl <;> rfl

theorem stops_of_mem (h : close ∈ form.closings) : close.Stops 0 := by
  cases form <;> simp only [closings, List.mem_cons, List.not_mem_nil, or_false] at h
  · exact Token.Kind.stops (h ▸ rfl) 0
  · rcases h with rfl | rfl <;> exact Token.Kind.stops rfl 0

theorem opening_type_ne (form : ArgumentForm) : form.opening.type ≠ .mark .endOfTemplate := by
  cases form <;> nofun

theorem ofToken?_opening (form : ArgumentForm) (line : Nat) (span : Span) :
    ofToken? ⟨form.opening, line, span⟩ = some form := by
  cases form <;> rfl

end ArgumentForm

/-- The tokens of a list in one of the forms, from the one that opens it to the end. -/
def EnclosedArgument.list (form : ArgumentForm) (items : List EnclosedArgument) (comma : Bool)
    (close : Token.Kind) (rest : List Token.Kind) : List Token.Kind :=
  form.opening :: (separated (.symbol .comma) (items.map written) ++
    ((if comma then [.symbol .comma] else []) ++ close :: rest))

/-- **A list of a form** is that of its arguments. -/
theorem reads_ofForm {post : Arguments Expr → Prop}
    (hclose : ∀ line span, form.isClosedBy ⟨close, line, span⟩ = true)
    (h : ∀ line, ReadsBelow n (parseArgumentList g form line) b (close :: rest) post) :
    Reads n (parseArguments g) (form.opening :: b) (form.behind close rest) post := by
  refine Reads.see fun line span => ?_
  rw [form.ofToken?_opening]
  refine Reads.drop_lt form.opening_type_ne ((h line).bind fun args hargs => Reads.below ?_)
  cases form with
  | parentheses =>
    have hparen : close = .symbol .rParen := Token.isSymbol_iff.1 (hclose 0 (.point 0))
    rw [hparen]
    exact Reads.drop nofun (Reads.pure hargs)
  | colon => exact Reads.pure hargs

/-- **A list in order** is read. -/
theorem reads_enclosedList {comma : Bool} (ha : items.map EnclosedArgument.argument = a.toList)
    (hvalues : ∀ x ∈ items, x.value.ReadBy n g)
    (hclose : ∀ line span, form.isClosedBy ⟨close, line, span⟩ = true)
    (hends : comma = false → ∀ x ∈ items.getLast?, close.Ends true (x.filters form))
    (hcomma : comma = true → items ≠ []) :
    Reads n (parseArguments g) (EnclosedArgument.list form items comma close rest)
      (form.behind close rest)
      (fun args => Expr.argumentsWithoutLines args = Expr.argumentsWithoutLines a) :=
  reads_ofForm hclose fun _ => reads_enclosedArguments ha hvalues hclose hends hcomma

/-- **A list out of order** is not. -/
theorem stuck_enclosedList {comma : Bool}
    (ha : ¬ ∃ a : Arguments Expr, items.map EnclosedArgument.argument = a.toList)
    (hvalues : ∀ n, ∀ x ∈ items, x.value.ReadBy n g) :
    StuckBefore (parseArguments g) (EnclosedArgument.list form items comma close rest) := by
  obtain ⟨a, x, more, hsplit, hx⟩ := Arguments.exists_of_not_toList ha
  obtain ⟨done, tail, rfl, hdone, htail⟩ := List.map_eq_append_iff.1 hsplit
  obtain ⟨x, tail, rfl, rfl, -⟩ := List.map_eq_cons_iff.1 htail
  have hlist (line : Nat) : StuckBefore (parseArgumentList g form line)
      (separated (.symbol .comma) ((done ++ x :: tail).map EnclosedArgument.written) ++
        ((if comma then [.symbol .comma] else []) ++ close :: rest)) := by
    rw [EnclosedArgument.separated_append]
    refine StuckBefore.leads (fun n => leads_enclosedArguments hdone
      (fun z hz => hvalues (n + 1) z (List.mem_append_left _ hz))
      (EnclosedArgument.ends_comma done _) n.lt_succ_self) fun y hy => ?_
    exact stuck_argumentLoop hx hy _
  refine StuckBefore.see fun line span => ?_
  rw [form.ofToken?_opening]
  exact StuckBefore.after (fun _ => reads_step form.opening_type_ne) fun _ _ => (hlist line).bind

/-- **Argument lists.** With values in parentheses, and a comma behind the last of them or not, a list
in parentheses and one behind a colon succeed exactly if their arguments are in order; then they have
just these arguments, up to lines. The closing parenthesis is consumed, the end of the tag is not. -/
theorem argument_lists (env : Environment) (form : ArgumentForm) (items : List EnclosedArgument)
    (comma : Bool) (hcomma : comma = true → items ≠ [])
    (hvalues : ∀ x ∈ items, env.Spells x.inner x.argument.value) (hclose : close ∈ form.closings)
    (hs : s.ahead = EnclosedArgument.list form items comma close rest) :
    ((∃ args t, parseArguments env.grammar s = .ok args t) ↔
      ∃ a : Arguments Expr, items.map EnclosedArgument.argument = a.toList) ∧
    ∀ a : Arguments Expr, items.map EnclosedArgument.argument = a.toList →
      ∃ args t, parseArguments env.grammar s = .ok args t ∧
        Expr.argumentsWithoutLines args = Expr.argumentsWithoutLines a ∧
        t.ahead = form.behind close rest := by
  have hreads (n : Nat) : ∀ x ∈ items, x.value.ReadBy n env.grammar :=
    fun x hx => (hvalues x hx).readBy_grammar
  have hread (a : Arguments Expr) (ha : items.map EnclosedArgument.argument = a.toList) :
      ∃ args t, parseArguments env.grammar s = .ok args t ∧
        Expr.argumentsWithoutLines args = Expr.argumentsWithoutLines a ∧
        t.ahead = form.behind close rest := by
    obtain ⟨args, t, hargs, ht, -, hsame⟩ := reads_enclosedList ha (hreads s.weight)
      (ArgumentForm.isClosedBy_of_mem hclose)
      (fun _ _ _ => (ArgumentForm.stops_of_mem hclose).ends true _) hcomma s hs (Nat.le_refl _)
    exact ⟨args, t, hargs, hsame, ht⟩
  refine ⟨⟨fun hok => ?_, fun hlist => ?_⟩, hread⟩
  · by_contra hnot
    obtain ⟨args, t, hargs⟩ := hok
    exact stuck_enclosedList hnot hreads s hs args t hargs
  · obtain ⟨a, ha⟩ := hlist
    obtain ⟨args, t, hargs, -⟩ := hread a ha
    exact ⟨args, t, hargs⟩

/-- `: (x), k=(x), *(x), }}` is a list in order. -/
theorem argument_lists_colon :
    let x : Expr := .name "x" .load 1
    let s := ParserState.before [.symbol .colon, .symbol .lParen, .name "x", .symbol .rParen,
      .symbol .comma, .name "k", .symbol .assign, .symbol .lParen, .name "x", .symbol .rParen,
      .symbol .comma, .symbol .mul, .symbol .lParen, .name "x", .symbol .rParen, .symbol .comma,
      .mark .variableEnd]
    ∃ args t, parseArguments (Environment.grammar {}) s = .ok args t ∧
      Expr.argumentsWithoutLines args =
        Expr.argumentsWithoutLines ⟨[x], [⟨"k", x, 1⟩], some x, none⟩ ∧
      t.ahead = [.mark .variableEnd, .mark .endOfTemplate] := by
  intro x s
  have hx : Environment.Spells {} [.name "x"] x := Environment.spells_name {} (by decide) 1
  refine (argument_lists {} .colon [⟨.positional x, [.name "x"]⟩, ⟨.keyword "k" x, [.name "x"]⟩,
    ⟨.spread x, [.name "x"]⟩] true nofun ?_ (.head _) rfl).2 ⟨[x], [⟨"k", x, 1⟩], some x, none⟩ rfl
  intro y hy
  simp only [List.mem_cons, List.not_mem_nil, or_false] at hy
  rcases hy with rfl | rfl | rfl <;> exact hx

end LiquidTemplate
