import LiquidTemplate.Proofs.RoundTrip.Postfix
import LiquidTemplate.Proofs.RoundTrip.Trailers

/-!
# Operators

An expression is found if it is legible and, where its operators group to the left, it can also be
the left operand of another one of its level.

* `Chained`, `Trailed`: tokens that lead to the loop of a level, or to the one of filters and tests.
* `Found`: legible, and a left operand at its level.
* `found_chain`, `found_not` and their like: one lemma for each kind of node.
-/

namespace LiquidTemplate

open LiquidTemplate.Parser LiquidTemplate.Grammar

variable {env : Environment} {st : Style} {n line : Nat} {g : Grammar} {e x node : Expr}
  {a b rest ks ls more : List Token.Kind} {k l : Token.Kind} {post : Expr → Prop}

/-! ### Left operands -/

/-- **Chained.** From these tokens the parser of a level comes to its loop with this expression. -/
def Chained (env : Environment) (level : Nat) (e : Expr) (ks : List Token.Kind) : Prop :=
  ∀ n k rest, k.Stops (level + 1) → ¬ k.Sticks →
    Leads n (parseLevel (below env n) level) (chainLoop (below env n) level) (ks ++ k :: rest)
      (k :: rest) (fun y => e.Alike y.1)

/-- **Trailed.** From these tokens the parser of operands comes to the loop of filters and tests
with this expression. -/
def Trailed (env : Environment) (e : Expr) (ks : List Token.Kind) : Prop :=
  ∀ n k rest, k.Stops 10 → ¬ k.Sticks →
    Leads n (parseSigned (below env n) true) (parseTrailers (below env n)) (ks ++ k :: rest)
      (k :: rest) e.Alike

/-- **Found**: legible, and a left operand at its own level. -/
structure Found (env : Environment) (e : Expr) (ks : List Token.Kind) : Prop where
  legible : Legible env e ks
  chained : e.level ∈ chainLevels → Chained env e.level e ks
  trailed : e.level = 9 → Trailed env e ks

/-- An operand of a level is a left operand one level below. -/
theorem chained_of_reads {level : Nat} (hl : level ∈ chainLevels) (hks : ks ≠ [])
    (h : ∀ n k rest, k.Stops (level + 1) → ¬ k.Sticks →
      Reads n (parseLevel (below env n) (level + 1)) (ks ++ k :: rest) (k :: rest) e.Alike) :
    Chained env level e ks := by
  intro n k rest hk hsticks
  obtain ⟨l, a, rfl⟩ := List.exists_cons_of_ne_nil hks
  exact leads_first hl (h n k rest hk hsticks)

theorem trailed_of_reads (h : ∀ n k rest, k.Stops 10 → ¬ k.Sticks →
      Reads n (parseSigned (below env n) false) (ks ++ k :: rest) (k :: rest) e.Alike) :
    Trailed env e ks := by
  intro n k rest hk hsticks
  have hsplit : parseSigned (below env n) true =
      parseSigned (below env n) false >>= parseTrailers (below env n) := by
    simp [parseSigned, bind_assoc]
  rw [hsplit]
  exact (h n k rest hk hsticks).leads

theorem Begins.ne_nil {level : Nat} (h : Begins ks level) : ks ≠ [] := by
  obtain ⟨k, l, rfl, _⟩ := h
  exact List.cons_ne_nil _ _

theorem level_lt_of_mem_chainLevels {level : Nat} (hl : level ∈ chainLevels) : level < 9 := by
  simp only [chainLevels, List.mem_cons, List.not_mem_nil, or_false] at hl
  omega

/-- **The left operand** of an operator. -/
theorem Found.left (h : Found env e ks) (st : Style) {level : Nat} (hl : level ∈ chainLevels) :
    Chained env level e (st.operand level e ks) := by
  have hlt := level_lt_of_mem_chainLevels hl
  unfold Style.operand
  split
  · exact chained_of_reads hl (List.cons_ne_nil _ _) fun n k rest hk _ =>
      h.legible.enclosed (level + 1) (by omega) hk
  · next hw =>
      have hle : level ≤ e.level := by simp at hw; omega
      rcases Nat.eq_or_lt_of_le hle with rfl | hlt'
      · exact h.chained hl
      · exact chained_of_reads hl h.legible.1.ne_nil fun n k rest hk hsticks =>
          h.legible.2 n (level + 1) k rest hlt' (by omega) hk hsticks

/-- **The operand of a filter.** -/
theorem Found.input (h : Found env e ks) (st : Style) : Trailed env e (st.operand 9 e ks) := by
  unfold Style.operand
  split
  · exact trailed_of_reads fun n k rest hk _ => h.legible.enclosed 10 (Nat.le_refl _) hk
  · next hw =>
      have hle : 9 ≤ e.level := by simp at hw; omega
      rcases Nat.eq_or_lt_of_le hle with heq | hlt
      · exact h.trailed heq.symm
      · exact trailed_of_reads fun n k rest hk hsticks =>
          h.legible.2 n 10 k rest hlt (Nat.le_refl _) hk hsticks

/-- An expression of a level without a loop is found if it is legible. -/
theorem Legible.found (h : Legible env e ks) (hl : e.level ∉ chainLevels) (h9 : e.level ≠ 9) :
    Found env e ks :=
  ⟨h, fun hc => absurd hc hl, fun ht => absurd ht h9⟩

/-! ### Operators with two operands -/

/-- **An operator that groups to the left.** -/
theorem found_chain {level : Nat} {build : Expr → Expr → Nat → Expr} {left right : Expr}
    (hl : level ∈ chainLevels) (hlevel : (build left right line).level = level)
    (hop : ∀ line span, operatorAt level ⟨k, line, span⟩ = some build)
    (hk : k.type ≠ .mark .endOfTemplate) (hstops : k.Stops (level + 1)) (hsticks : ¬ k.Sticks)
    (halike : ∀ x y line', left.Alike x → right.Alike y →
      (build left right line).Alike (build x y line'))
    (hleft : Found env left ks) (hright : Found env right ls) :
    Found env (build left right line)
      (st.operand level left ks ++ k :: st.operand (level + 1) right ls) := by
  have hlt := level_lt_of_mem_chainLevels hl
  have hchained : Chained env level (build left right line)
      (st.operand level left ks ++ k :: st.operand (level + 1) right ls) := by
    intro n k' rest hk' hsticks'
    rw [List.append_assoc, List.cons_append]
    refine (hleft.left st hl n k _ hstops hsticks).trans fun x hx => ?_
    refine (leads_operator hk hop
      (hright.legible.operand st (level + 1) (by omega) hk' hsticks')).imp ?_
    intro y hy
    obtain ⟨right', line', hr, hy⟩ := hy
    rw [hy]
    exact halike _ _ _ hx hr
  have hbegins : Begins (st.operand level left ks ++ k :: st.operand (level + 1) right ls)
      (build left right line).level := by
    rw [hlevel]
    exact (hleft.legible.1.operand st level).append
  refine ⟨legible_of_level level hbegins (by omega) fun n k' rest hk' hsticks' => ?_,
    fun _ => hlevel ▸ hchained, fun h9 => by omega⟩
  exact (hchained n k' rest (hk'.mono (Nat.le_succ _)) hsticks').reads fun x hx =>
    (reads_chainLoop hk' x).imp fun _ hy => hy ▸ hx

theorem found_or {left right : Expr} (hleft : Found env left ks) (hright : Found env right ls) :
    Found env (.or left right line)
      (st.operand 1 left ks ++ .name "or" :: st.operand 2 right ls) := by
  refine found_chain (by simp [chainLevels]) rfl (fun _ _ => rfl) nofun ?_ nofun ?_ hleft hright
  · intro t ht
    obtain rfl : 1 = t := by simpa [Token.Kind.tier?] using ht
    omega
  · intro x y line' hx hy
    have hx := hx.eq
    have hy := hy.eq
    simp only [Expr.Alike, Expr.withoutLines, hx, hy]

theorem found_and {left right : Expr} (hleft : Found env left ks) (hright : Found env right ls) :
    Found env (.and left right line)
      (st.operand 2 left ks ++ .name "and" :: st.operand 3 right ls) := by
  refine found_chain (by simp [chainLevels]) rfl (fun _ _ => rfl) nofun ?_ nofun ?_ hleft hright
  · intro t ht
    obtain rfl : 2 = t := by simpa [Token.Kind.tier?] using ht
    omega
  · intro x y line' hx hy
    have hx := hx.eq
    have hy := hy.eq
    simp only [Expr.Alike, Expr.withoutLines, hx, hy]

theorem found_binary {op : BinaryOp} {left right : Expr} (hleft : Found env left ks)
    (hright : Found env right ls) :
    Found env (.binary op left right line) (st.operand op.level left ks ++
      .symbol op.symbol :: st.operand (op.level + 1) right ls) := by
  have halike (x y : Expr) (line' : Nat) (hx : left.Alike x) (hy : right.Alike y) :
      (Expr.binary op left right line).Alike (.binary op x y line') := by
    have hx := hx.eq
    have hy := hy.eq
    simp only [Expr.Alike, Expr.withoutLines, hx, hy]
  have hsticks : ¬ Token.Kind.Sticks (.symbol op.symbol) := by
    cases op <;> rintro ⟨⟩
  refine found_chain ?_ rfl ?_ (by rintro ⟨⟩) ?_ hsticks halike hleft hright
  · cases op <;> simp [BinaryOp.level, chainLevels]
  · intro line span
    cases op <;> rfl
  · intro t ht
    cases op <;> simp [Token.Kind.tier?, BinaryOp.symbol, BinaryOp.level] at ht ⊢ <;> omega

/-! ### Negations and signs -/

theorem found_not (h : Found env node ks) :
    Found env (.not node line) (.name "not" :: st.operand 3 node ks) := by
  have hbegins : Begins (.name "not" :: st.operand 3 node ks) (Expr.not node line).level :=
    ⟨_, _, rfl, by simp [Token.Kind.type], fun h => absurd h (by simp [Expr.level])⟩
  refine Legible.found ?_ (by simp [Expr.level, chainLevels]) (by simp [Expr.level])
  refine legible_of_level 3 hbegins rfl fun n k rest hk hsticks => ?_
  have hnode : ReadsBelow n ((below env n).negation true) (st.operand 3 node ks ++ k :: rest)
      (k :: rest) node.Alike := by
    rw [below_negation]
    exact reads_guarded (p := fun j => parseNegation (below env j) true) fun _ _ =>
      h.legible.operand st 3 (by omega) hk hsticks
  rw [List.cons_append]
  refine Reads.see fun line' span => ?_
  refine Reads.drop_lt (by rintro ⟨⟩) <| hnode.bind fun x hx => ?_
  have hx := hx.eq
  refine (Reads.pure ?_).below
  simp only [Expr.Alike, Expr.withoutLines, hx]

/-- What a sign reads. -/
theorem reads_sign_operand (h : Found env node ks) (hk : k.Stops 10) (hsticks : ¬ k.Sticks) :
    ReadsBelow n (below env n).signed (st.operand 10 node ks ++ k :: rest) (k :: rest)
      node.Alike := by
  rw [below_signed]
  exact reads_guarded (p := fun j => parseSigned (below env j) false) fun _ _ =>
    h.legible.operand st 10 (Nat.le_refl _) hk hsticks

/-- An operand with its sign is an operand. -/
theorem found_of_sign (hl : e.level = 10) (hbegins : Begins (l :: ks) e.level)
    (h : ∀ n k rest, k.Stops 10 → ¬ k.Sticks →
      Reads n (parseSign (below env n)) (l :: (ks ++ k :: rest)) (k :: rest) e.Alike) :
    Found env e (l :: ks) := by
  refine Legible.found ?_ (by simp [hl, chainLevels]) (by omega)
  refine legible_of_level 10 hbegins (by omega) fun n k rest hk hsticks => ?_
  have hsplit : parseSigned (below env n) false =
      parseSign (below env n) >>= parsePostfix (below env n) := by
    simp [parseSigned]
  show Reads n (parseSigned (below env n) false) _ _ _
  rw [hsplit]
  exact (h n k rest hk hsticks).bind fun x hx =>
    (reads_postfix_end (hk.mono (by omega)) x).imp fun _ hy => hy ▸ hx

theorem found_neg (h : Found env node ks) :
    Found env (.neg node line) (.symbol .sub :: st.operand 10 node ks) := by
  refine found_of_sign rfl ⟨_, _, rfl, by simp [Token.Kind.type], fun _ => by rintro ⟨⟩⟩
    fun n k rest hk hsticks => ?_
  refine Reads.see fun line' span => ?_
  refine Reads.drop_lt (by rintro ⟨⟩) <|
    (reads_sign_operand h hk hsticks).bind fun x hx => ?_
  have hx := hx.eq
  refine (Reads.pure ?_).below
  simp only [Expr.Alike, Expr.withoutLines, hx]

theorem found_pos (h : Found env node ks) :
    Found env (.pos node line) (.symbol .add :: st.operand 10 node ks) := by
  refine found_of_sign rfl ⟨_, _, rfl, by simp [Token.Kind.type], fun _ => by rintro ⟨⟩⟩
    fun n k rest hk hsticks => ?_
  refine Reads.see fun line' span => ?_
  refine Reads.drop_lt (by rintro ⟨⟩) <|
    (reads_sign_operand h hk hsticks).bind fun x hx => ?_
  have hx := hx.eq
  refine (Reads.pure ?_).below
  simp only [Expr.Alike, Expr.withoutLines, hx]

/-! ### Chains of comparisons and joined texts -/

theorem found_concat {nodes : List Expr} (hlen : 2 ≤ nodes.length)
    (h : ∀ e ∈ nodes, Found env e (e.written st)) :
    Found env (.concat nodes line)
      (separated (.symbol .tilde) (nodes.map fun e => st.operand 7 e (e.written st))) := by
  obtain ⟨e, es, rfl⟩ : ∃ e es, nodes = e :: es :=
    List.exists_cons_of_length_pos (Nat.lt_of_lt_of_le Nat.two_pos hlen)
  have htilde : Token.Kind.Stops (.symbol .tilde) 7 := by
    intro t ht
    obtain rfl : 6 = t := by simpa [Token.Kind.tier?] using ht
    omega
  have he := h e List.mem_cons_self
  have hbegins : Begins (separated (.symbol .tilde)
      ((e :: es).map fun e => st.operand 7 e (e.written st))) (Expr.concat (e :: es) line).level :=
    ((he.legible.1.operand st 7).append).mono (by simp [Expr.level])
  refine Legible.found ?_ (by simp [Expr.level, chainLevels]) (by simp [Expr.level])
  refine legible_of_level 6 hbegins rfl fun n k rest hk hsticks => ?_
  have hnodes : Reads n (parseConcatNodes (below env n) true)
      (separated (.symbol .tilde) ((e :: es).map fun e => st.operand 7 e (e.written st)) ++
        k :: rest) (k :: rest)
      (fun xs => xs.map Expr.withoutLines = (e :: es).map Expr.withoutLines) := by
    have hends (l : Token.Kind) (hl : l = .symbol .tilde ∨ l = k) : l.Stops 7 ∧ ¬ l.Sticks := by
      rcases hl with rfl | rfl
      · exact ⟨htilde, by rintro ⟨⟩⟩
      · exact ⟨hk.mono (by omega), hsticks⟩
    have hread (x : Expr) (hx : Found env x (x.written st)) (l : Token.Kind) (more)
        (hl : l = .symbol .tilde ∨ l = k) :
        Reads n (parseProduct (below env n) true) (st.operand 7 x (x.written st) ++ l :: more)
          (l :: more) x.Alike :=
      hx.legible.operand st 7 (by omega) (hends l hl).1 (hends l hl).2
    have htokens : separated (.symbol .tilde) ((e :: es).map fun e => st.operand 7 e (e.written st))
        ++ k :: rest = st.operand 7 e (e.written st) ++
          (following (.symbol .tilde) true (es.map fun e => st.operand 7 e (e.written st)) ++
            k :: rest) := by
      simp [separated, following]
    obtain ⟨l, more, hmore, hl⟩ := following_first (.symbol .tilde) k
      (es.map fun e => st.operand 7 e (e.written st)) rest
    rw [htokens]
    have hfirst := hread e he l more hl
    rw [← hmore] at hfirst
    refine hfirst.bind fun x hx => ?_
    have hx := hx.eq
    refine (Leads.items (.symbol .tilde) true (fun l => l = .symbol .tilde ∨ l = k) (.inl rfl)
      (fun e => st.operand 7 e (e.written st))
      (fun done (xs : List Expr) => xs.map Expr.withoutLines =
        (e :: done).map Expr.withoutLines) es ?_ (by simp [hx])
      fun _ => ⟨_, _, rfl, .inr rfl⟩).reads fun xs hxs => ?_
    · intro done y more hdone xs hxs l rest hl
      refine Leads.round ?_ (length_behind_lt ..)
      refine Reads.skips (by rintro ⟨⟩) rfl ?_
      refine (hread y (h y (by simp [hdone])) l rest hl).bind fun z hz => ?_
      have hz := hz.eq
      exact Reads.pure ⟨_, rfl, by simp [hxs, hz]⟩
    · refine Reads.stop (Reads.stays (fits_symbol_eq_false hk rfl) ?_)
      exact Reads.pure ⟨xs, rfl, hxs⟩
  obtain ⟨l, more, hl, _⟩ := hbegins
  rw [hl] at hnodes ⊢
  refine Reads.see fun line' span => ?_
  refine hnodes.bind fun xs hxs => ?_
  have hlen' : 2 ≤ xs.length := by
    have := congrArg List.length hxs
    simp only [List.length_map] at this
    omega
  obtain ⟨x, rest, rfl⟩ := List.exists_cons_of_length_pos (Nat.lt_of_lt_of_le Nat.two_pos hlen')
  obtain ⟨y, xs, rfl⟩ := List.exists_cons_of_length_pos (Nat.le_of_succ_le_succ hlen')
  refine Reads.pure ?_
  simp only [Expr.Alike, Expr.withoutLines, Expr.listWithoutLines_eq_map, hxs]

/-- **The operator of a comparison.** -/
theorem reads_comparison (op : Comparison) :
    Reads n parseComparison? (op.kinds ++ a) a (fun x => x = some op) := by
  cases op with
  | isIn =>
      refine Reads.see fun line span => ?_
      refine Reads.drop (by rintro ⟨⟩) <| Reads.pure rfl
  | notIn =>
      refine Reads.see fun line span => ?_
      refine (reads_look (by simp [Token.Kind.type])).bind ?_
      intro _ hy
      obtain ⟨line', span', rfl⟩ := hy
      refine (reads_skip_two (by simp [Token.Kind.type]) (by simp [Token.Kind.type])).bind
        fun _ _ => Reads.pure rfl
  | _ =>
      refine Reads.see fun line span => ?_
      refine Reads.drop (by rintro ⟨⟩) <| Reads.pure rfl

/-- What follows a link is the operator of another one, or what stands behind all of them. -/
theorem operands_first (st : Style) (os : List (Operand Expr)) (rest : List Token.Kind)
    (hk : k.Stops 5) (hsticks : ¬ k.Sticks) :
    ∃ l more, Expr.writtenOperands st os ++ k :: rest = l :: more ∧ l.Stops 5 ∧ ¬ l.Sticks := by
  cases os with
  | nil => exact ⟨k, rest, rfl, hk, hsticks⟩
  | cons o os =>
      obtain ⟨op, e⟩ := o
      have hop : ∃ l more, op.kinds = l :: more ∧ l.tier? = some 4 ∧ ¬ l.Sticks := by
        cases op <;> exact ⟨_, _, rfl, rfl, nofun⟩
      obtain ⟨l, more, hl, htier, hs⟩ := hop
      refine ⟨l, more ++ (st.operand 5 e (e.written st) ++ (Expr.writtenOperands st os ++ k :: rest)),
        by simp [Expr.writtenOperands, hl], fun t ht => ?_, hs⟩
      obtain rfl : 4 = t := by simpa [htier] using ht
      omega

/-- **The links of a chain** of comparisons. -/
theorem leads_operands {os : List (Operand Expr)}
    (h : ∀ o ∈ os, Found env o.expr (o.expr.written st)) (hk : k.Stops 5) (hsticks : ¬ k.Sticks)
    (done : List (Operand Expr)) (line : Nat) :
    Leads n (repeatFrom (parseNextOperand (below env n) true) (done, line))
      (repeatFrom (parseNextOperand (below env n) true))
      (Expr.writtenOperands st os ++ k :: rest) (k :: rest)
      (fun y => Expr.operandsWithoutLines y.1 = Expr.operandsWithoutLines (done ++ os)) := by
  induction os generalizing done line with
  | nil => exact Leads.refl (by simp)
  | cons o os ih =>
      obtain ⟨op, e⟩ := o
      have he := h ⟨op, e⟩ List.mem_cons_self
      obtain ⟨l, more, hl, hstops, hsticks'⟩ := operands_first st os rest hk hsticks
      have hround : Leads n (repeatFrom (parseNextOperand (below env n) true) (done, line))
          (repeatFrom (parseNextOperand (below env n) true))
          (op.kinds ++ (st.operand 5 e (e.written st) ++ l :: more)) (l :: more)
          (fun y => ∃ x, x.withoutLines = e.withoutLines ∧ y.1 = done ++ [⟨op, x⟩]) := by
        refine Leads.round ((reads_comparison op).bind ?_) ?_
        · intro _ hy
          obtain rfl := hy
          refine (he.legible.operand st 5 (by omega) hstops hsticks').bind fun x hx => ?_
          refine Reads.see fun line' span => ?_
          exact Reads.pure ⟨_, rfl, x, hx, rfl⟩
        · cases op <;> simp only [Comparison.kinds, List.length_cons, List.length_append] <;> omega
      rw [Expr.writtenOperands, List.append_assoc, List.append_assoc]
      rw [← hl] at hround
      refine hround.trans ?_
      intro y hy
      obtain ⟨ops, line'⟩ := y
      obtain ⟨x, hx, rfl⟩ := hy
      refine (ih (fun o ho => h o (List.mem_cons_of_mem _ ho)) (done ++ [⟨op, x⟩]) line').imp ?_
      intro y hy
      simpa [hx] using hy

theorem found_compare {os : List (Operand Expr)} (he : Found env e ks) (hne : os ≠ [])
    (h : ∀ o ∈ os, Found env o.expr (o.expr.written st)) :
    Found env (.compare e os line) (st.operand 5 e ks ++ Expr.writtenOperands st os) := by
  have hbegins : Begins (st.operand 5 e ks ++ Expr.writtenOperands st os)
      (Expr.compare e os line).level :=
    ((he.legible.1.operand st 5).mono (by simp [Expr.level])).append
  refine Legible.found ?_ (by simp [Expr.level, chainLevels]) (by simp [Expr.level])
  refine legible_of_level 4 hbegins rfl fun n k rest hk hsticks => ?_
  have hk5 : k.Stops 5 := hk.mono (by omega)
  obtain ⟨l, more, hl, hstops, hsticks'⟩ := operands_first st os rest hk5 hsticks
  have hfirst : Reads n (parseSum (below env n) true)
      (st.operand 5 e ks ++ (Expr.writtenOperands st os ++ k :: rest))
      (Expr.writtenOperands st os ++ k :: rest) e.Alike := by
    rw [hl]
    exact he.legible.operand st 5 (by omega) hstops hsticks'
  obtain ⟨l', more', hl', _⟩ := he.legible.1.operand st 5
  rw [List.append_assoc]
  rw [hl'] at hfirst ⊢
  refine Reads.see fun line' span => ?_
  refine hfirst.bind fun x hx => ?_
  have hoperands : Reads n (parseOperands (below env n) true line')
      (Expr.writtenOperands st os ++ k :: rest) (k :: rest)
      (fun y => Expr.operandsWithoutLines y.1 = Expr.operandsWithoutLines os) := by
    refine (leads_operands h hk5 hsticks [] line').reads ?_
    intro y hops
    obtain ⟨ops, line⟩ := y
    refine Reads.stop ((reads_comparison_none hk).bind ?_)
    intro _ hy
    obtain rfl := hy
    exact Reads.pure ⟨_, rfl, hops⟩
  refine hoperands.bind ?_
  intro y hops
  obtain ⟨ops, line'⟩ := y
  have hops : Expr.operandsWithoutLines ops = Expr.operandsWithoutLines os := hops
  have hempty : ops.isEmpty = os.isEmpty := by
    simpa using congrArg List.isEmpty hops
  have hx := hx.eq
  show Reads n (Pure.pure (if ops.isEmpty then x else .compare x ops line')) _ _ _
  rw [hempty, List.isEmpty_eq_false_iff.2 hne]
  refine Reads.pure ?_
  show Expr.compare x.withoutLines (Expr.operandsWithoutLines ops) 0 =
    Expr.compare e.withoutLines (Expr.operandsWithoutLines os) 0
  rw [hx, hops]

/-! ### Conditionals -/

/-- An operand where an expression is read through the grammar. -/
theorem Found.expression (h : Found env e ks) (st : Style) (place : Nat) (hk : k.Stops 0)
    (hsticks : ¬ k.Sticks) :
    ReadsBelow n ((below env n).expression true true) (st.operand place e ks ++ k :: rest)
      (k :: rest) e.Alike := by
  unfold Style.operand
  split
  · exact h.legible.expression rest hk
  · rw [below_expression]
    exact reads_guarded (p := fun j => parseExpression (below env j) true true) fun j _ =>
      h.legible.2 j 0 k rest (Nat.zero_le _) (Nat.zero_le _) hk hsticks

theorem found_conditional {cond yes : Expr} {no : Option Expr}
    (hcond : Found env cond (cond.written st)) (hyes : Found env yes (yes.written st))
    (hno : ∀ e ∈ no, Found env e (e.written st)) :
    Found env (.conditional cond yes no line) ((Expr.conditional cond yes no line).written st) := by
  have htier (word : String) (hword : Token.Kind.tier? (.name word) = some 0) :
      Token.Kind.Stops (.name word) 1 := by
    intro t ht
    obtain rfl : 0 = t := by simpa [hword] using ht
    omega
  rw [Expr.written]
  have hbegins : Begins (st.operand 1 yes (yes.written st) ++ .name "if" ::
      (st.operand 1 cond (cond.written st) ++
        Expr.writtenOption st [.name "else"] (st.operand 1) no))
      (Expr.conditional cond yes no line).level :=
    ((hyes.legible.1.operand st 1).mono (by simp [Expr.level])).append
  refine Legible.found ?_ (by simp [Expr.level, chainLevels]) (by simp [Expr.level])
  refine legible_of_level 0 hbegins rfl fun n k rest hk hsticks => ?_
  -- The alternative is read through the grammar, with less weight left than before it.
  have helse : Reads n (parseElse? (below env n))
      (Expr.writtenOption st [.name "else"] (st.operand 1) no ++ k :: rest) (k :: rest)
      (fun x => x.map Expr.withoutLines = no.map Expr.withoutLines) := by
    cases no with
    | none =>
        refine Reads.stays (fits_name_eq_false hk rfl) ?_
        exact Reads.pure rfl
    | some e =>
        refine Reads.skips_lt (by rintro ⟨⟩) rfl ?_
        refine ((hno e rfl).expression st 1 hk hsticks).bind fun x hx => (Reads.pure ?_).below
        exact congrArg some hx
  have hcondition : Reads n (parseOr (below env n) true)
      (st.operand 1 cond (cond.written st) ++
        (Expr.writtenOption st [.name "else"] (st.operand 1) no ++ k :: rest))
      (Expr.writtenOption st [.name "else"] (st.operand 1) no ++ k :: rest) cond.Alike := by
    cases no with
    | none => exact hcond.legible.operand st 1 (by omega) (hk.mono (Nat.zero_le _)) hsticks
    | some e => exact hcond.legible.operand st 1 (by omega) (htier "else" rfl) (by rintro ⟨⟩)
  have hfirst : Reads n (parseOr (below env n) true)
      (st.operand 1 yes (yes.written st) ++ .name "if" :: (st.operand 1 cond (cond.written st) ++
        (Expr.writtenOption st [.name "else"] (st.operand 1) no ++ k :: rest)))
      (.name "if" :: (st.operand 1 cond (cond.written st) ++
        (Expr.writtenOption st [.name "else"] (st.operand 1) no ++ k :: rest))) yes.Alike :=
    hyes.legible.operand st 1 (by omega) (htier "if" rfl) (by rintro ⟨⟩)
  obtain ⟨l, more, hl, _⟩ := hyes.legible.1.operand st 1
  rw [List.append_assoc, List.cons_append, List.append_assoc]
  rw [hl] at hfirst ⊢
  refine Reads.see fun line' span => ?_
  refine hfirst.bind fun x hx => ?_
  have hlt := length_behind_lt (.name "if") (st.operand 1 cond (cond.written st) ++
    Expr.writtenOption st [.name "else"] (st.operand 1) no) (k :: rest)
  rw [List.append_assoc] at hlt
  refine Reads.round ?_ hlt
    fun y (hy : (Expr.conditional cond yes no line).Alike y.1) => ?_
  · refine Reads.skips (by rintro ⟨⟩) rfl ?_
    refine hcondition.bind fun c hc => helse.bind fun o ho => Reads.see fun line'' span' => ?_
    have hx := hx.eq
    have hc := hc.eq
    refine Reads.pure ⟨_, rfl, ?_⟩
    simp only [Expr.Alike, Expr.withoutLines, Expr.optionWithoutLines_eq_map, hx, hc, ho]
  · refine Reads.stop (Reads.stays (fits_name_eq_false hk rfl) ?_)
    exact Reads.pure ⟨y.1, rfl, hy⟩

/-! ### Filters and tests -/

theorem found_of_trailed (hl : e.level = 9) (hb : Begins ks e.level) (h : Trailed env e ks) :
    Found env e ks := by
  refine ⟨?_, fun hc => absurd (level_lt_of_mem_chainLevels hc) (by omega), fun _ => h⟩
  refine legible_of_level 9 hb (by omega) fun n k rest hk hsticks => ?_
  exact (h n k rest (hk.mono (by omega)) hsticks).reads fun x hx =>
    (reads_trailers_end hk x).imp fun _ hy => hy ▸ hx

theorem found_filter {name : String} {args : Arguments Expr} (hnode : Found env node ks)
    (h : ∀ e ∈ args.values, Found env e (e.written st)) :
    Found env (.filter (some node) name args line) (st.operand 9 node ks ++ .symbol .pipe ::
      (nameKinds name ++
        if args.isEmpty && !st.lists then [] else Expr.writtenArguments st args)) := by
  refine found_of_trailed rfl (hnode.legible.1.operand st 9).append fun n k rest hk hsticks => ?_
  rw [List.append_assoc, List.cons_append]
  refine (hnode.input st n (.symbol .pipe) _ Token.Kind.stops_pipe nofun).trans fun x hx => ?_
  have hname := reads_filterName (n := n) name (some x) rest
    (fun e he => (h e he).legible) hk hsticks
  rw [← List.append_assoc] at hname
  refine (leads_filter hname).imp ?_
  intro _ hy
  obtain ⟨args', line', rfl, hargs⟩ := hy
  have hx := hx.eq
  show Expr.filter (some x.withoutLines) name (Expr.argumentsWithoutLines args') 0 =
    Expr.filter (some node.withoutLines) name (Expr.argumentsWithoutLines args) 0
  rw [hx, hargs]

theorem found_test {name : String} {args : Arguments Expr} (hnode : Found env node ks)
    (h : ∀ e ∈ args.values, Found env e (e.written st))
    (hnot : (nameParts name).head? ≠ some "not") :
    Found env (.test node name args line)
      (parens ks ++ .name "is" :: (nameKinds name ++ Expr.writtenArguments st args)) := by
  have his : Token.Kind.Stops (.name "is") 10 := by
    intro t ht
    obtain rfl : 9 = t := by simpa [Token.Kind.tier?] using ht
    omega
  refine found_of_trailed rfl Begins.parens.append fun n k rest hk hsticks => ?_
  rw [List.append_assoc, List.cons_append, List.append_assoc]
  have hleft : Trailed env node (parens ks) :=
    trailed_of_reads fun n k rest hk _ => hnode.legible.enclosed 10 (Nat.le_refl _) hk
  refine (hleft n (.name "is") _ his (by rintro ⟨⟩)).trans fun x hx => ?_
  refine (leads_test (fun e he => (h e he).legible) hnot).imp ?_
  intro _ hy
  obtain ⟨args', line', rfl, hargs⟩ := hy
  have hx := hx.eq
  show Expr.test x.withoutLines name (Expr.argumentsWithoutLines args') 0 =
    Expr.test node.withoutLines name (Expr.argumentsWithoutLines args) 0
  rw [hx, hargs]

/-! ### Members, items and calls -/

/-- What stands behind a primary in parentheses. -/
theorem found_of_postfix (hl : e.level = 11) (hnode : Legible env node ks)
    (h : ∀ n x k rest, node.Alike x → Leads n (parsePostfix (below env n) x)
      (parsePostfix (below env n)) (more ++ k :: rest) (k :: rest) e.Alike) :
    Found env e (parens ks ++ more) := by
  refine Legible.found ?_ (by simp [hl, chainLevels]) (by omega)
  refine legible_of_level 10 Begins.parens.append (by omega) fun n k rest hk _ => ?_
  rw [List.append_assoc]
  refine ((leads_primary (l := .symbol .lParen) (by rintro ⟨⟩) (by rintro ⟨⟩) hnode.primary).trans
    fun x hx => h n x k rest hx).reads
    fun x hx => ?_
  exact (reads_postfix_end (hk.mono (by omega)) x).imp fun _ hy => hy ▸ hx

theorem found_member (attr : String) (hnode : Legible env node ks) :
    Found env (.member node attr line) (parens ks ++ [.symbol .dot, .name attr]) := by
  refine found_of_postfix rfl hnode fun n x k rest hx => (leads_member attr).imp ?_
  intro _ hy
  obtain ⟨line', rfl⟩ := hy
  have hx := hx.eq
  simp only [Expr.Alike, Expr.withoutLines, hx]

theorem found_item {arg : Expr} (hnode : Legible env node ks)
    (h : ∀ e ∈ arg.subscriptList, Subscriptable env st e)
    (hctx : ∀ items c l, arg = .tuple items c l → c = .load) :
    Found env (.item node arg line)
      (parens ks ++ .symbol .lBracket :: (Expr.subscripts st arg ++ [.symbol .rBracket])) := by
  refine found_of_postfix rfl hnode fun n x k rest hx => ?_
  rw [List.cons_append, List.append_assoc]
  refine (leads_item h).imp ?_
  intro _ hy
  obtain ⟨ys, line', rfl, hys⟩ := hy
  exact itemOf_alike hx hctx hys

theorem found_call {args : Arguments Expr} (hnode : Legible env node ks)
    (h : ∀ e ∈ args.values, Legible env e (e.written st)) :
    Found env (.call node args line) (parens ks ++ Expr.writtenArguments st args) := by
  refine found_of_postfix rfl hnode fun n x k rest hx => (leads_call h).imp ?_
  intro _ hy
  obtain ⟨args', line', rfl, hargs⟩ := hy
  have hx := hx.eq
  show Expr.call x.withoutLines (Expr.argumentsWithoutLines args') 0 =
    Expr.call node.withoutLines (Expr.argumentsWithoutLines args) 0
  rw [hx, hargs]

/-! ### All expressions -/

/-- **Every expression is found** from its tokens, in every style. -/
theorem Expr.Readable.found (he : Readable e) (env : Environment) (st : Style) :
    Found env e (e.written st) := by
  induction he with
  | @const value line =>
      exact (legible_const value line).found (by simp [level, chainLevels]) (by simp [level])
  | @name n line hn =>
      exact (legible_name hn line).found (by simp [level, chainLevels]) (by simp [level])
  | @tuple items line hi ih =>
      rw [written, writtenEach_eq_map]
      exact (legible_tuple line fun e he => (ih e he).legible).found
        (by simp [level, chainLevels]) (by simp [level])
  | @list items line hi ih =>
      rw [written, writtenEach_eq_map]
      exact (legible_list line fun e he => (ih e he).legible).found
        (by simp [level, chainLevels]) (by simp [level])
  | @dict entries line hk hv ihk ihv =>
      rw [written, writtenEntries_eq_map]
      exact (legible_dict line (fun x hx => (ihk x hx).legible)
        fun x hx => (ihv x hx).legible).found (by simp [level, chainLevels]) (by simp [level])
  | member hn ih =>
      rw [written]
      exact found_member _ ih.legible
  | item hn hc ha hp ihn iha ihp =>
      rw [written_item]
      refine found_item ihn.legible (fun e he => ?_) hc
      cases hslice : e.isSlice with
      | true =>
          rw [Subscriptable, hslice]
          exact fun x hx => (ihp e he hslice x hx).legible
      | false =>
          rw [Subscriptable, hslice]
          exact (iha e he hslice).legible
  | call hn ha ihn iha =>
      rw [written]
      exact found_call ihn.legible fun e he => (iha e he).legible
  | filter hn ha ihn iha =>
      rw [written]
      exact found_filter ihn iha
  | test hn ha hnot ihn iha =>
      rw [written]
      exact found_test ihn iha hnot
  | conditional hc hy hn ihc ihy ihn => exact found_conditional ihc ihy ihn
  | and hl hr ihl ihr =>
      rw [written]
      exact found_and ihl ihr
  | or hl hr ihl ihr =>
      rw [written]
      exact found_or ihl ihr
  | not hn ih =>
      rw [written]
      exact found_not ih
  | neg hn ih =>
      rw [written]
      exact found_neg ih
  | pos hn ih =>
      rw [written]
      exact found_pos ih
  | binary hl hr ihl ihr =>
      rw [written]
      exact found_binary ihl ihr
  | concat hl hn ih =>
      rw [written, writtenEach_eq_map]
      exact found_concat hl ih
  | compare he hl ho ihe iho =>
      rw [written]
      exact found_compare ihe hl iho

end LiquidTemplate
