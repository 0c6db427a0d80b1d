import LiquidTemplate.Proofs.RoundTrip.Levels

/-!
# Primaries

What stands between parentheses is read by the grammar of a smaller bound. An expression is legible
if its tokens are read at its level by the grammars of all bounds; then it is read in parentheses
wherever an expression can stand.

* `Legible`: tokens that an expression is read from.
* `Legible.enclosed`, `Legible.operand`: a legible expression in parentheses, or at a place.
* `legible_const` and its like: constants, names, tuples, lists and dictionaries.
-/

namespace LiquidTemplate

open LiquidTemplate.Parser LiquidTemplate.Grammar

variable {env : Environment} {n : Nat} {g : Grammar} {e : Expr} {a b rest ks : List Token.Kind}
  {k l : Token.Kind} {post : Expr → Prop}

/-! ### Legible expressions -/

/-- **Legible.** The grammar of every bound reads the expression from these tokens, at its level and
at all places where a looser one could stand. -/
def Legible (env : Environment) (e : Expr) (ks : List Token.Kind) : Prop :=
  Begins ks e.level ∧ ∀ n place k rest, place ≤ e.level → place ≤ 10 → k.Stops place →
    ¬ k.Sticks → Reads n (parseLevel (below env n) place) (ks ++ k :: rest) (k :: rest) e.Alike

/-- What is read at the level of an expression makes it legible. -/
theorem legible_of_level (level : Nat) (hb : Begins ks e.level) (hl : level = min e.level 10)
    (h : ∀ n k rest, k.Stops level → ¬ k.Sticks →
      Reads n (parseLevel (below env n) level) (ks ++ k :: rest) (k :: rest) e.Alike) :
    Legible env e ks := by
  refine ⟨hb, fun n place k rest hp hp10 hk hsticks => ?_⟩
  have hle : place ≤ level := by omega
  exact reads_down hle (by omega) hk (hb.append.mono (by omega))
    (h n k rest (hk.mono hle) hsticks)

/-- **A tuple of one item without a comma** is that item. -/
theorem reads_tuple_one {item : TupleItem} {ends : List TokenRule} {parentheses : Bool}
    (hl : ∀ line span, isTupleEnd ends ⟨l, line, span⟩ = false) (hk : k ≠ .symbol .comma)
    (h : Reads n (parseTupleItem g item) (l :: a) (k :: rest) post) :
    Reads n (parseTuple g item ends parentheses) (l :: a) (k :: rest) post := by
  refine Reads.see fun line span => ?_
  have hitems : Reads n (parseTupleItems g item ends line) (l :: a) (k :: rest)
      (fun read => ∃ e, read.isTuple = false ∧ read.items = [e] ∧ post e) := by
    refine Reads.stop ((reads_separator false).bind fun _ _ => Reads.see fun line' span' => ?_)
    rw [hl, if_neg Bool.false_ne_true]
    refine h.bind fun e he => Reads.see fun line' span' => ?_
    rw [if_neg fun hc => hk (Token.isSymbol_iff.1 hc)]
    exact Reads.pure ⟨_, rfl, e, rfl, rfl, he⟩
  refine hitems.bind ?_
  intro read hy
  obtain ⟨e, htuple, hread, he⟩ := hy
  rw [htuple, hread]
  exact Reads.pure he

/-- No expression begins at the end of a tuple. -/
theorem isTupleEnd_of_begins {level : Nat} (h : Begins ks level) :
    ∃ l a, ks = l :: a ∧ ∀ line span, isTupleEnd [] ⟨l, line, span⟩ = false := by
  obtain ⟨l, a, rfl, hl, _⟩ := h
  refine ⟨l, a, rfl, fun line span => ?_⟩
  have hne (t : TokenType) (ht : t ∈ [.mark .variableEnd, .mark .blockEnd, .symbol .rParen]) :
      (l.type == t) = false := by
    refine beq_eq_false_iff_ne.2 fun h => ?_
    rw [h] at hl
    simp only [List.mem_cons, List.not_mem_nil, or_false] at ht
    rcases ht with rfl | rfl | rfl <;> simp at hl
  simp [isTupleEnd, Token.isMark, Token.isSymbol, Token.type, Token.fitsAny, hne]

theorem reads_group (h : Legible env e ks) (rest : List Token.Kind) :
    ReadsBelow n (below env n).group (ks ++ .symbol .rParen :: rest) (.symbol .rParen :: rest)
      e.Alike := by
  rw [below_group]
  refine reads_guarded (p := fun j => parseTuple (below env j) (.expression true) [] true)
    fun j _ => ?_
  obtain ⟨l, a, hla, hend⟩ := isTupleEnd_of_begins h.1
  have hread := h.2 j 0 (.symbol .rParen) rest (Nat.zero_le _) (Nat.zero_le _)
    (Token.Kind.stops rfl 0) nofun
  rw [hla] at hread ⊢
  exact reads_tuple_one hend nofun hread

/-- **Parentheses** around what is read between them. -/
theorem reads_parens (h : ReadsBelow n g.group (ks ++ .symbol .rParen :: rest)
    (.symbol .rParen :: rest) post) :
    Reads n (parsePrimary g) (parens ks ++ rest) rest post := by
  rw [parens, List.cons_append, List.append_assoc]
  refine Reads.see fun line span => ?_
  refine Reads.drop_lt nofun <| h.bind fun e he => ?_
  exact Reads.below (Reads.demand nofun rfl fun _ _ => Reads.pure he)

/-! ### Operands -/

/-- An operand without a sign begins with a primary. -/
theorem leads_primary (hsub : l ≠ .symbol .sub) (hadd : l ≠ .symbol .add)
    (h : Reads n (parsePrimary g) (l :: a) b post) :
    Leads n (parseSigned g false) (parsePostfix g) (l :: a) b post := by
  have hsplit : parseSigned g false = parseSign g >>= parsePostfix g := by
    simp [parseSigned]
  have hsign : Reads n (parseSign g) (l :: a) b post := by
    refine Reads.see fun line span => ?_
    rw [if_neg fun hs => hsub (Token.isSymbol_iff.1 hs),
      if_neg fun hs => hadd (Token.isSymbol_iff.1 hs)]
    exact h
  rw [hsplit]
  exact hsign.leads

/-- A primary is an operand, where nothing belongs to it. -/
theorem reads_primary (hsub : l ≠ .symbol .sub) (hadd : l ≠ .symbol .add) (hk : k.Stops 11)
    (h : Reads n (parsePrimary g) (l :: a) (k :: rest) post) :
    Reads n (parseSigned g false) (l :: a) (k :: rest) post :=
  (leads_primary hsub hadd h).reads fun x hx => (reads_postfix_end hk x).imp fun _ hy => hy ▸ hx

/-- Parentheses can stand wherever an expression can. -/
theorem reads_enclosed {place : Nat} (h : ReadsBelow n g.group
      (ks ++ .symbol .rParen :: k :: rest) (.symbol .rParen :: k :: rest) post)
    (hp : place ≤ 10) (hk : k.Stops place) :
    Reads n (parseLevel g place) (parens ks ++ k :: rest) (k :: rest) post := by
  refine reads_down hp (Nat.le_refl _) hk Begins.parens.append ?_
  exact reads_primary nofun nofun (hk.mono (by omega)) (reads_parens h)

/-- A primary is legible. -/
theorem legible_of_primary (hl : 11 < e.level) (hb : Begins ks e.level)
    (hsub : ks.head? ≠ some (.symbol .sub)) (hadd : ks.head? ≠ some (.symbol .add))
    (h : ∀ n k rest, ¬ k.Sticks →
      Reads n (parsePrimary (below env n)) (ks ++ k :: rest) (k :: rest) e.Alike) :
    Legible env e ks := by
  obtain ⟨l, a, rfl, _⟩ := id hb
  refine legible_of_level 10 hb (by omega) fun n k rest hk hsticks => ?_
  exact reads_primary (fun h => hsub (by rw [h]; rfl)) (fun h => hadd (by rw [h]; rfl))
    (hk.mono (by omega)) (h n k rest hsticks)

namespace Legible

theorem primary (h : Legible env e ks) :
    Reads n (parsePrimary (below env n)) (parens ks ++ rest) rest e.Alike :=
  reads_parens (reads_group h _)

/-- **In parentheses** an expression is read wherever one can stand. -/
theorem enclosed (h : Legible env e ks) (place : Nat) (hp : place ≤ 10) (hk : k.Stops place) :
    Reads n (parseLevel (below env n) place) (parens ks ++ k :: rest) (k :: rest) e.Alike :=
  reads_enclosed (reads_group h _) hp hk

/-- **At a place** that may need parentheses. -/
theorem operand (h : Legible env e ks) (st : Style) (place : Nat) (hp : place ≤ 10)
    (hk : k.Stops place) (hsticks : ¬ k.Sticks) :
    Reads n (parseLevel (below env n) place) (st.operand place e ks ++ k :: rest) (k :: rest)
      e.Alike := by
  unfold Style.operand
  split
  · exact h.enclosed place hp hk
  · next hw =>
      have hl : place ≤ e.level := by simp at hw; omega
      exact h.2 n place k rest hl hp hk hsticks

/-- As an expression of the bounded grammar. -/
theorem expression (h : Legible env e ks) (rest : List Token.Kind) (hk : k.Stops 0) :
    ReadsBelow n ((below env n).expression true true) (parens ks ++ k :: rest) (k :: rest)
      e.Alike := by
  rw [below_expression]
  exact reads_guarded (p := fun j => parseExpression (below env j) true true) fun _ _ =>
    h.enclosed 0 (Nat.zero_le _) hk

end Legible

/-! ### Constants and names -/

/-- A string ends where no other string follows. -/
theorem reads_string_end (hk : ¬ k.Sticks) (text : String) :
    Reads n (parseString text) (k :: rest) (k :: rest) (fun t => t = text) := by
  refine Reads.stop (Reads.see fun line span => ?_)
  split
  · next h =>
      obtain rfl : k = _ := h
      exact absurd trivial hk
  · exact Reads.pure ⟨_, rfl, rfl⟩

theorem legible_const (value : Constant) (line : Nat) :
    Legible env (.const value line) [value.kind] := by
  refine legible_of_primary (by simp [Expr.level]) (begins_constant _ _) ?_ ?_ ?_
  · rcases value with _ | (_ | _) | _ | _ | _ <;> simp [Constant.kind]
  · rcases value with _ | (_ | _) | _ | _ | _ <;> simp [Constant.kind]
  · intro n k rest hsticks
    refine Reads.see fun l span => ?_
    cases value with
    | none => exact Reads.drop (by rintro ⟨⟩) <| Reads.pure rfl
    | bool value =>
        cases value <;>
          exact Reads.drop (by rintro ⟨⟩) <| Reads.pure rfl
    | int | float =>
        exact Reads.drop (by rintro ⟨⟩) <| Reads.pure rfl
    | str text =>
        refine Reads.drop (by rintro ⟨⟩) ?_
        refine (reads_string_end hsticks text).bind ?_
        intro _ hy
        obtain rfl := hy
        exact Reads.pure rfl

/-- A name that is not reserved is none of a constant. -/
theorem Constant.ofName?_eq_none {n : String} (hn : n ∉ Expr.reservedNames) :
    Constant.ofName? n = Option.none := by
  unfold Constant.ofName?
  split <;> first
    | rfl
    | simp [Expr.reservedNames] at hn

theorem legible_name {name : String} (hn : name ∉ Expr.reservedNames) (line : Nat) :
    Legible env (.name name .load line) [.name name] := by
  have he : Expr.Readable (.name name .load line) := .name hn
  refine legible_of_primary (by simp [Expr.level]) (he.begins Style.full) (by rintro ⟨⟩) (by rintro ⟨⟩)
    fun n k rest _ => ?_
  refine Reads.see fun l span => ?_
  refine Reads.drop (by rintro ⟨⟩) ?_
  rw [Constant.ofName?_eq_none hn]
  exact Reads.pure rfl

/-! ### Tuples, lists and dictionaries -/

section Sequences

variable {items : List Expr} {f : Expr → List Token.Kind}

/-- Items with a comma behind each have one between neighbours and one more at the end. -/
theorem flatMap_comma_eq (kss : List (List Token.Kind)) (hne : kss ≠ []) :
    kss.flatMap (· ++ [.symbol .comma]) = separated (.symbol .comma) kss ++ [.symbol .comma] := by
  have hlater (kss : List (List Token.Kind)) :
      .symbol .comma :: kss.flatMap (· ++ [.symbol .comma]) =
        following (.symbol .comma) true kss ++ [.symbol .comma] := by
    induction kss with
    | nil => rfl
    | cons ks kss ih => simp [following, ← ih]
  obtain ⟨ks, kss, rfl⟩ := List.exists_cons_of_ne_nil hne
  simp [separated, following, ← hlater]

/-- **A tuple**, whose items have a comma behind each of them. -/
theorem reads_tuple (h : ∀ e ∈ items, Legible env e (f e)) :
    Reads n (parseTuple (below env n) (.expression true) [] true)
      ((items.map fun e => parens (f e)).flatMap (· ++ [.symbol .comma]) ++ .symbol .rParen :: rest)
      (.symbol .rParen :: rest)
      (fun x => ∃ line, x.withoutLines = Expr.withoutLines (.tuple items .load line)) := by
  have hclose : ∀ line span, isTupleEnd [] ⟨.symbol .rParen, line, span⟩ = true := fun _ _ => rfl
  have hopen : ∀ line span, isTupleEnd [] ⟨.symbol .lParen, line, span⟩ = false := fun _ _ => rfl
  cases items with
  | nil =>
      refine Reads.see fun line span => ?_
      have hitems : Reads n (parseTupleItems (below env n) (.expression true) [] line)
          (.symbol .rParen :: rest) (.symbol .rParen :: rest) (fun read => read = { line }) := by
        refine Reads.stop ((reads_separator false).bind fun _ _ => Reads.see fun line' span' => ?_)
        rw [hclose, if_pos rfl]
        exact Reads.pure ⟨_, rfl, rfl⟩
      refine hitems.bind ?_
      intro _ hy
      obtain rfl := hy
      exact Reads.pure ⟨0, rfl⟩
  | cons e es =>
      rw [flatMap_comma_eq _ (by simp), List.append_assoc]
      obtain ⟨l, a, hla⟩ : ∃ l a, separated (.symbol .comma) ((e :: es).map fun e => parens (f e)) ++
          ([.symbol .comma] ++ .symbol .rParen :: rest) = l :: a := ⟨_, _, rfl⟩
      rw [hla]
      refine Reads.see fun line span => ?_
      rw [← hla]
      have hitems : Reads n (parseTupleItems (below env n) (.expression true) [] line)
          (separated (.symbol .comma) ((e :: es).map fun e => parens (f e)) ++
            .symbol .comma :: .symbol .rParen :: rest)
          (.symbol .rParen :: rest)
          (fun read => read.isTuple = true ∧
            read.items.map Expr.withoutLines = (e :: es).map Expr.withoutLines) := by
        refine (Leads.items (.symbol .comma) false (· = .symbol .comma) rfl (fun e => parens (f e))
          (fun done (read : TupleItems) => read.isTuple = !done.isEmpty ∧
            read.items.map Expr.withoutLines = done.map Expr.withoutLines) (e :: es) ?_
          ⟨rfl, rfl⟩ fun _ => ⟨_, _, rfl, rfl⟩).reads ?_
        · intro done x more hmore read hy _ rest hz
          obtain ⟨hread, hdone⟩ := hy
          obtain rfl := hz
          have hempty : read.items.isEmpty = done.isEmpty := by
            simpa using congrArg List.isEmpty hdone
          have hx := h x (by rw [hmore]; simp)
          refine Leads.round ?_ (length_behind_append_lt ..)
          rw [parseNextTupleItem, hempty, Bool.false_or]
          refine (reads_separator _).bind fun _ _ => Reads.see fun line' span' => ?_
          rw [hopen, if_neg Bool.false_ne_true]
          refine (hx.enclosed 0 (Nat.zero_le _) (Token.Kind.stops rfl 0)).bind fun y hy => ?_
          refine Reads.see fun line' span' => ?_
          have hy := hy.eq
          exact Reads.pure ⟨_, rfl, by simp, by simp [hdone, hy]⟩
        · intro read hy
          obtain ⟨hread, hdone⟩ := hy
          have hempty : read.items.isEmpty = false := by
            simpa using congrArg List.isEmpty hdone
          refine Reads.stop ?_
          rw [parseNextTupleItem, hempty]
          refine (reads_separator true).bind fun _ _ => Reads.see fun line' span' => ?_
          rw [hclose, if_pos rfl]
          exact Reads.pure ⟨_, rfl, hread, hdone⟩
      refine hitems.bind ?_
      intro read hy
      obtain ⟨htuple, hread⟩ := hy
      rw [htuple]
      refine Reads.pure ⟨0, ?_⟩
      simp only [Expr.withoutLines, Expr.listWithoutLines_eq_map, hread]

theorem legible_tuple (line : Nat) (h : ∀ e ∈ items, Legible env e (f e)) :
    Legible env (.tuple items .load line) (tupleOf (items.map fun e => parens (f e))) := by
  refine legible_of_primary (by simp [Expr.level]) Begins.parens nofun nofun fun n k rest _ => ?_
  refine reads_parens ?_
  rw [below_group]
  refine reads_guarded (p := fun j => parseTuple (below env j) (.expression true) [] true)
    fun j _ => (reads_tuple h).imp ?_
  intro x hy
  obtain ⟨line', hx⟩ := hy
  exact hx

theorem legible_list (line : Nat) (h : ∀ e ∈ items, Legible env e (f e)) :
    Legible env (.list items line) (.symbol .lBracket ::
      (separated (.symbol .comma) (items.map fun e => parens (f e)) ++ [.symbol .rBracket])) := by
  refine legible_of_primary (by simp [Expr.level])
    ⟨_, _, rfl, by simp [Token.Kind.type], fun _ => by rintro ⟨⟩⟩ (by rintro ⟨⟩) (by rintro ⟨⟩)
    fun n k rest _ => ?_
  rw [List.cons_append, List.append_assoc]
  refine Reads.see fun l span => ?_
  refine Reads.demand_lt (by rintro ⟨⟩) rfl fun l' span' => ?_
  have hitems : ReadsBelow n (parseItems .rBracket ((below env n).expression true true))
      (separated (.symbol .comma) (items.map fun e => parens (f e)) ++ .symbol .rBracket ::
        (k :: rest)) (.symbol .rBracket :: (k :: rest))
      (fun ys => ys.map Expr.withoutLines = items.map Expr.withoutLines) := by
    refine fun j hj => reads_items (fun e => parens (f e)) items (by decide) ?_ ?_
    · exact fun x _ => ⟨_, _, rfl, by rintro ⟨⟩⟩
    · rintro x hx k rest (rfl | rfl) <;>
        exact (h x hx).expression rest (Token.Kind.stops rfl 0) j hj
  refine hitems.bind fun ys hys => ?_
  refine Reads.below (Reads.demand (by rintro ⟨⟩) rfl fun _ _ => ?_)
  refine Reads.pure ?_
  simp only [Expr.Alike, Expr.withoutLines, Expr.listWithoutLines_eq_map, hys]

theorem legible_dict {entries : List (Entry Expr)} (line : Nat)
    (hkey : ∀ x ∈ entries, Legible env x.key (f x.key))
    (hvalue : ∀ x ∈ entries, Legible env x.value (f x.value)) :
    Legible env (.dict entries line) (.symbol .lBrace ::
      (separated (.symbol .comma) (entries.map fun x =>
        parens (f x.key) ++ .symbol .colon :: parens (f x.value)) ++ [.symbol .rBrace])) := by
  refine legible_of_primary (by simp [Expr.level])
    ⟨_, _, rfl, by simp [Token.Kind.type], fun _ => by rintro ⟨⟩⟩ (by rintro ⟨⟩) (by rintro ⟨⟩)
    fun n k rest _ => ?_
  rw [List.cons_append, List.append_assoc]
  refine Reads.see fun l span => ?_
  refine Reads.demand_lt (by rintro ⟨⟩) rfl fun l' span' => ?_
  let bare (x : Entry Expr) : Entry Expr := ⟨x.key.withoutLines, x.value.withoutLines, 0⟩
  have hentries : ReadsBelow n (parseItems .rBrace (parseEntry (below env n)))
      (separated (.symbol .comma) (entries.map fun x =>
        parens (f x.key) ++ .symbol .colon :: parens (f x.value)) ++ .symbol .rBrace ::
        (k :: rest)) (.symbol .rBrace :: (k :: rest))
      (fun ys => ys.map bare = entries.map bare) := by
    refine fun j hj => reads_items (fun x => parens (f x.key) ++ .symbol .colon :: parens (f x.value))
      entries (by decide) ?_ ?_
    · exact fun x _ => ⟨_, _, rfl, by rintro ⟨⟩⟩
    · intro x hx k rest hk
      have hvalue : Reads j ((below env n).expression true true)
          (parens (f x.value) ++ k :: rest) (k :: rest) x.value.Alike := by
        rcases hk with rfl | rfl <;>
          exact (hvalue x hx).expression rest (Token.Kind.stops rfl 0) j hj
      rw [List.append_assoc, List.cons_append]
      refine ((hkey x hx).expression _ (Token.Kind.stops rfl 0) j hj).bind fun key hk => ?_
      refine Reads.demand (by rintro ⟨⟩) rfl fun _ _ => ?_
      refine hvalue.bind fun value hv => Reads.pure ?_
      have hk := hk.eq
      have hv := hv.eq
      simp only [bare, hk, hv]
  refine hentries.bind fun ys hys => ?_
  refine Reads.below (Reads.demand (by rintro ⟨⟩) rfl fun _ _ => ?_)
  refine Reads.pure ?_
  simp only [Expr.Alike, Expr.withoutLines, Expr.entriesWithoutLines_eq_map]
  exact congrArg (Expr.dict · 0) hys

end Sequences

end LiquidTemplate
