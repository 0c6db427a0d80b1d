import LiquidTemplate.Proofs.RoundTrip.Arguments

/-!
# Members, items and calls

* `reads_slice`, `reads_subscripts`: what stands between the brackets of an item.
* `leads_member`, `leads_item`, `leads_call`: what stands behind a primary is one round of the loop
  there.
-/

namespace LiquidTemplate

open LiquidTemplate.Parser LiquidTemplate.Grammar

variable {env : Environment} {st : Style} {n line : Nat} {g : Grammar} {e x : Expr}
  {a b rest ks : List Token.Kind} {k l : Token.Kind} {post : Expr → Prop}

/-! ### Slices -/

/-- **A part of a slice**, which can be left out. -/
theorem reads_slicePart {o : Option Expr} {ends : List Symbol} {s : Symbol}
    (h : ∀ e ∈ o, Legible env e (e.written st)) (hends : .lParen ∉ ends) (hs : s ∈ ends)
    (hstops : Token.Kind.tier? (.symbol s) = none) :
    ReadsBelow n (parseSlicePart (below env n) ends)
      (Expr.writtenOption st [] (fun _ => parens) o ++ .symbol s :: rest) (.symbol s :: rest)
      (fun y => y.map Expr.withoutLines = o.map Expr.withoutLines) := by
  intro j hj
  have hany (r : Symbol) (line : Nat) (span : Span) :
      (ends.any (Token.isSymbol ⟨.symbol r, line, span⟩) = true) ↔ r ∈ ends := by
    simp [Token.isSymbol, Token.type, Token.Kind.type]
  cases o with
  | none =>
      refine Reads.see fun line span => ?_
      rw [if_pos ((hany s line span).2 hs)]
      exact Reads.pure rfl
  | some e =>
      refine Reads.see fun line span => ?_
      rw [if_neg fun h => hends ((hany .lParen line span).1 h)]
      refine ((h e rfl).expression _ (Token.Kind.stops hstops 0) j hj).bind fun y hy => ?_
      exact Reads.pure (congrArg some hy)

/-- What ends a subscript. -/
def EndsSubscript (k : Token.Kind) : Prop :=
  k = .symbol .comma ∨ k = .symbol .rBracket

theorem EndsSubscript.not_colon (hk : EndsSubscript k) :
    k.fits (.type (.symbol .colon)) = false := by
  rcases hk with rfl | rfl <;> rfl

variable {start stop step : Option Expr}

/-- A slice behind its first colon. -/
theorem reads_sliceFrom {start' : Option Expr} (line : Nat) (rest : List Token.Kind)
    (hstart : start'.map Expr.withoutLines = start.map Expr.withoutLines)
    (hstop : ∀ e ∈ stop, Legible env e (e.written st))
    (hstep : ∀ e ∈ step, Legible env e (e.written st)) (hk : EndsSubscript k) :
    ReadsBelow n (parseSliceFrom (below env n) start' line)
      (Expr.writtenOption st [] (fun _ => parens) stop ++
        (Expr.writtenOption st [.symbol .colon] (fun _ => parens) step ++ k :: rest)) (k :: rest)
      (Expr.slice start stop step 0).Alike := by
  intro j hj
  have hlist : (.lParen : Symbol) ∉ [.colon, .rBracket, .comma] := by decide
  cases step with
  | none =>
      have hread : Reads j (parseSlicePart (below env n) [.colon, .rBracket, .comma])
          (Expr.writtenOption st [] (fun _ => parens) stop ++ k :: rest) (k :: rest)
          (fun y => y.map Expr.withoutLines = stop.map Expr.withoutLines) := by
        rcases hk with rfl | rfl <;> exact reads_slicePart hstop hlist (by decide) rfl j hj
      refine hread.bind fun y hy => ?_
      refine Reads.stays hk.not_colon ?_
      refine Reads.pure ?_
      simp [Expr.Alike, Expr.withoutLines, hstart, hy]
  | some e =>
      refine (reads_slicePart hstop hlist (by decide) rfl j hj).bind fun y hy => ?_
      refine Reads.skips (by rintro ⟨⟩) rfl ?_
      have hread : Reads j (parseSlicePart (below env n) [.rBracket, .comma])
          (Expr.writtenOption st [] (fun _ => parens) (some e) ++ k :: rest) (k :: rest)
          (fun y => y.map Expr.withoutLines = (some e).map Expr.withoutLines) := by
        rcases hk with rfl | rfl <;>
          exact reads_slicePart hstep (by decide) (by decide) rfl j hj
      refine hread.bind fun z hz => Reads.pure ?_
      simp only [Expr.Alike, Expr.withoutLines, Expr.optionWithoutLines_eq_map, hstart, hy, hz]

/-- **A slice.** -/
theorem reads_slice (h : ∀ e ∈ (Expr.slice start stop step line).children,
      Legible env e (e.written st)) (hk : EndsSubscript k) :
    ReadsBelow n (parseSubscript (below env n))
      ((Expr.slice start stop step line).written st ++ k :: rest) (k :: rest)
      (Expr.slice start stop step line).Alike := by
  simp only [Expr.children, List.mem_append, Option.mem_toList] at h
  intro j hj
  rw [Expr.written, List.append_assoc, List.cons_append, List.append_assoc]
  have hfrom {start' : Option Expr} (line : Nat)
      (hstart : start'.map Expr.withoutLines = start.map Expr.withoutLines) :=
    reads_sliceFrom (n := n) line rest hstart
      (fun e he => h e (.inl (.inr he))) (fun e he => h e (.inr he)) hk j hj
  cases start with
  | none =>
      refine Reads.see fun line span => ?_
      refine Reads.skips (by rintro ⟨⟩) rfl ?_
      exact hfrom _ rfl
  | some e =>
      refine Reads.see fun line span => ?_
      refine Reads.stays rfl ?_
      refine ((h e (.inl (.inl rfl))).expression _ (Token.Kind.stops rfl 0) j hj).bind fun y hy => ?_
      refine Reads.skips (by rintro ⟨⟩) rfl ?_
      exact hfrom _ (congrArg some hy)

/-! ### Subscripts -/

/-- An expression between brackets. -/
theorem Legible.subscript (h : Legible env e ks) (hk : EndsSubscript k) :
    ReadsBelow n (parseSubscript (below env n)) (parens ks ++ k :: rest) (k :: rest) e.Alike := by
  intro j hj
  refine Reads.see fun line span => ?_
  refine Reads.stays rfl ?_
  have hstops : k.Stops 0 := by
    rcases hk with rfl | rfl <;> exact Token.Kind.stops rfl 0
  refine (h.expression rest hstops j hj).bind fun y hy => ?_
  refine Reads.stays hk.not_colon ?_
  exact Reads.pure hy

/-- Legible between brackets: a slice of legible expressions, or a legible expression. -/
def Subscriptable (env : Environment) (st : Style) (e : Expr) : Prop :=
  if e.isSlice then ∀ x ∈ e.children, Legible env x (x.written st)
  else Legible env e (e.written st)

/-- **A subscript.** -/
theorem Subscriptable.reads (h : Subscriptable env st e) (rest : List Token.Kind)
    (hk : EndsSubscript k) :
    ReadsBelow n (parseSubscript (below env n)) (e.subscript (e.written st) ++ k :: rest)
      (k :: rest) e.Alike := by
  unfold Subscriptable at h
  unfold Expr.subscript
  cases hslice : e.isSlice with
  | true =>
      rw [hslice, if_pos rfl] at h
      rw [if_pos rfl]
      cases e with
      | slice start stop step line => exact reads_slice h hk
      | _ => nomatch hslice
  | false =>
      rw [hslice, if_neg Bool.false_ne_true] at h
      rw [if_neg Bool.false_ne_true]
      exact h.subscript hk

/-- A subscript begins with a parenthesis or a colon. -/
theorem subscript_begins (st : Style) (e : Expr) :
    ∃ l more, e.subscript (e.written st) = l :: more ∧ l.type ≠ .symbol .rBracket := by
  unfold Expr.subscript
  split
  · cases e with
    | slice start stop step line =>
        rw [Expr.written]
        cases start with
        | none => exact ⟨_, _, rfl, by rintro ⟨⟩⟩
        | some e => exact ⟨_, _, rfl, by rintro ⟨⟩⟩
    | _ => contradiction
  · exact ⟨_, _, rfl, by rintro ⟨⟩⟩

/-- **Several subscripts** up to the closing bracket. -/
theorem reads_subscripts {args : List Expr} (h : ∀ e ∈ args, Subscriptable env st e) :
    ReadsBelow n (parseSubscripts (below env n))
      (separated (.symbol .comma) (args.map fun e => e.subscript (e.written st)) ++
        .symbol .rBracket :: rest) (.symbol .rBracket :: rest)
      (fun ys => ys.map Expr.withoutLines = args.map Expr.withoutLines) := by
  intro j hj
  refine (Leads.items (.symbol .comma) false EndsSubscript (.inl rfl)
    (fun e => e.subscript (e.written st))
    (fun done (ys : List Expr) => ys.map Expr.withoutLines = done.map Expr.withoutLines) args ?_ rfl
    fun _ => ⟨_, _, rfl, .inr rfl⟩).reads fun ys hys => ?_
  · intro done e more hmore ys hys k rest hk
    have hread := (h e (by simp [hmore])).reads rest hk j hj
    have hempty : ys.isEmpty = done.isEmpty := by simpa using congrArg List.isEmpty hys
    have hitem (first : Bool) : Reads j (do
          parseSeparator first
          let e ← parseSubscript (below env n)
          return .inl (ys ++ [e]) : Parser (List Expr ⊕ List Expr))
        ((if first then [.symbol .comma] else []) ++ (e.subscript (e.written st) ++ k :: rest))
        (k :: rest) (fun r => ∃ zs, r = .inl zs ∧
          zs.map Expr.withoutLines = (done ++ [e]).map Expr.withoutLines) := by
      refine (reads_separator first).bind fun _ _ => hread.bind fun y hy => ?_
      have hy := hy.eq
      exact Reads.pure ⟨_, rfl, by simp [hys, hy]⟩
    obtain ⟨l, a, hl, hbracket⟩ := subscript_begins st e
    refine Leads.round ?_ (by rw [hl]; exact length_behind_append_lt ..)
    rw [parseNextSubscript, hempty, Bool.false_or]
    have hitem := hitem (!done.isEmpty)
    cases done with
    | nil =>
        rw [hl] at hitem ⊢
        refine Reads.symbol .rBracket ?_
        rw [if_neg (by simpa using hbracket)]
        exact hitem
    | cons y done =>
        refine Reads.symbol .rBracket ?_
        exact hitem
  · refine Reads.stop (Reads.symbol .rBracket ?_)
    exact Reads.pure ⟨ys, rfl, hys⟩

/-- What stands between the brackets are the subscripts with commas between them. -/
theorem subscripts_eq (st : Style) (arg : Expr) :
    Expr.subscripts st arg =
      separated (.symbol .comma) ((arg.subscriptList).map fun e => e.subscript (e.written st)) := by
  cases arg with
  | tuple items c l =>
      rw [Expr.subscripts, Expr.subscriptList]
      split
      · rw [Expr.writtenEach_eq_map]
      · simp [separated, following, Expr.subscript, Expr.isSlice, Expr.written]
  | _ => simp [Expr.subscripts, Expr.subscriptList, separated, following]

/-- The item with these subscripts. -/
def itemOf (node : Expr) (args : List Expr) (line : Nat) : Expr :=
  match args with
  | [e] => .item node e line
  | es => .item node (.tuple es .load line) line

/-- **What is read between brackets** makes the same item. -/
theorem itemOf_alike {node y arg : Expr} {ys : List Expr} {line line' : Nat}
    (hnode : node.Alike y) (hctx : ∀ items c l, arg = .tuple items c l → c = .load)
    (hys : ys.map Expr.withoutLines = (arg.subscriptList).map Expr.withoutLines) :
    (Expr.item node arg line).Alike (itemOf y ys line') := by
  have hnode := hnode.eq
  by_cases hlong : ∃ items c l, arg = .tuple items c l ∧ 2 ≤ items.length
  · obtain ⟨items, c, l, rfl, hlen⟩ := hlong
    obtain rfl := hctx items c l rfl
    rw [Expr.subscriptList, if_pos hlen] at hys
    have hlen' : 2 ≤ ys.length := by
      have := congrArg List.length hys
      simp at this
      omega
    match ys, hlen' with
    | y₁ :: y₂ :: ys, _ =>
        simp only [Expr.Alike, itemOf, Expr.withoutLines, Expr.listWithoutLines_eq_map, hnode, hys]
  · have hone : arg.subscriptList = [arg] := by
      cases arg with
      | tuple items c l => exact if_neg fun h => hlong ⟨items, c, l, rfl, h⟩
      | _ => rfl
    rw [hone] at hys
    obtain ⟨z, rfl, hz⟩ := List.map_eq_singleton_iff.1 hys
    simp only [Expr.Alike, itemOf, Expr.withoutLines, hnode, hz]

/-! ### Rounds behind a primary -/

theorem leads_member (attr : String) :
    Leads n (parsePostfix g x) (parsePostfix g) (.symbol .dot :: .name attr :: k :: rest)
      (k :: rest) (fun y => ∃ line, y = .member x attr line) := by
  refine Leads.round (Reads.see fun line span => ?_) (by simp)
  refine Reads.drop nofun ?_
  have hmember : Reads n (parseMember x line) (.name attr :: k :: rest) (k :: rest)
      (fun y => y = .member x attr line) := by
    refine Reads.take nofun fun line' span' => ?_
    exact Reads.pure rfl
  exact hmember.bind fun y hy => Reads.pure ⟨y, rfl, line, hy⟩

theorem leads_call {args : Arguments Expr} (h : ∀ e ∈ args.values, Legible env e (e.written st)) :
    Leads n (parsePostfix (below env n) x) (parsePostfix (below env n))
      (Expr.writtenArguments st args ++ k :: rest) (k :: rest)
      (fun y => ∃ args' line, y = .call x args' line ∧
        Expr.argumentsWithoutLines args' = Expr.argumentsWithoutLines args) := by
  have hargs := reads_arguments (n := n) (k :: rest) h
  obtain ⟨more, hmore⟩ := writtenArguments_eq st args
  rw [hmore] at hargs ⊢
  refine Leads.round (Reads.see fun line span => ?_) (length_behind_lt ..)
  have hcall : Reads n (parseCall (below env n) x) (.symbol .lParen :: more ++ k :: rest)
      (k :: rest) (fun y => ∃ args' line, y = .call x args' line ∧
        Expr.argumentsWithoutLines args' = Expr.argumentsWithoutLines args) := by
    refine Reads.see fun line' span' => ?_
    exact hargs.bind fun args' hargs' => Reads.pure ⟨args', line', rfl, hargs'⟩
  exact hcall.bind fun y hy => Reads.pure ⟨y, rfl, hy⟩

theorem leads_item {arg : Expr} (h : ∀ e ∈ arg.subscriptList, Subscriptable env st e) :
    Leads n (parsePostfix (below env n) x) (parsePostfix (below env n))
      (.symbol .lBracket :: (Expr.subscripts st arg ++ .symbol .rBracket :: k :: rest)) (k :: rest)
      (fun y => ∃ ys line, y = itemOf x ys line ∧
        ys.map Expr.withoutLines = (arg.subscriptList).map Expr.withoutLines) := by
  rw [subscripts_eq]
  have hlt := length_behind_lt (.symbol .lBracket)
    (separated (.symbol .comma) (arg.subscriptList.map fun e => e.subscript (e.written st)))
    (.symbol .rBracket :: k :: rest)
  refine Leads.round (Reads.see fun line span => ?_) (Nat.lt_of_succ_lt hlt)
  refine Reads.drop_lt nofun ?_
  have hitem : ReadsBelow n (parseItem (below env n) x line)
      (separated (.symbol .comma) ((arg.subscriptList).map fun e => e.subscript (e.written st)) ++
        .symbol .rBracket :: k :: rest) (k :: rest)
      (fun y => ∃ ys line, y = itemOf x ys line ∧
        ys.map Expr.withoutLines = (arg.subscriptList).map Expr.withoutLines) := by
    intro j hj
    refine (reads_subscripts h j hj).bind fun ys hys => ?_
    refine Reads.demand nofun rfl fun _ _ => ?_
    match ys with
    | [] => exact Reads.pure ⟨[], line, rfl, hys⟩
    | [e] => exact Reads.pure ⟨[e], line, rfl, hys⟩
    | e :: e' :: es => exact Reads.pure ⟨e :: e' :: es, line, rfl, hys⟩
  exact hitem.bind fun y hy => (Reads.pure ⟨y, rfl, hy⟩).below

end LiquidTemplate
