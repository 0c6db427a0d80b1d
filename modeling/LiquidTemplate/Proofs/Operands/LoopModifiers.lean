import LiquidTemplate.Proofs.Operands.Enclosed
import LiquidTemplate.Proofs.Progress.Rounds

/-!
# Modifiers of a loop

What a loop goes through depends on which of its modifiers come last of their kind and not on how the
kinds are mixed: the part from the last offset on, as long as the last limit says, in reverse if any
modifier says so.

* `LoopModifier`: a modifier as it is written.
* `LoopModifier.modified`: an iterable with its modifiers.
* `LoopModifiers.foldl_add`: which modifiers count.
* `leads_valued`, `leads_modifier`, `leads_modifiers`: one modifier, and all of them.
* `LoopModifier.under`: a modifier whose value takes the condition behind it.
* `loop_modifiers`: an iterable with its modifiers is read, in every order, and what becomes of a
  condition behind them.
-/

namespace LiquidTemplate

open LiquidTemplate.Parser LiquidTemplate.Grammar

variable {env : Environment} {n : Nat} {g : Grammar} {s : ParserState} {rest : List Token.Kind}
  {k : Token.Kind} {e e' : Expr} {m m' : LoopModifiers}

/-! ### Modifiers as they are written -/

/-- **A modifier of a loop**, with its value in parentheses. -/
inductive LoopModifier where
  | reversed
  | limit (value : Enclosed)
  | offset (value : Enclosed)

namespace LoopModifier

/-- The name of a modifier. -/
def word : LoopModifier → String
  | reversed => "reversed"
  | limit _ => "limit"
  | offset _ => "offset"

/-- The value of a modifier. -/
def value? : LoopModifier → Option Enclosed
  | reversed => none
  | limit value | offset value => some value

/-- The tokens of a modifier. -/
def written (x : LoopModifier) : List Token.Kind :=
  .name x.word ::
    match x.value? with
    | none => []
    | some value => .symbol .colon :: value.written

/-- The modifiers of one kind. -/
def named (word : String) (mods : List LoopModifier) : List LoopModifier :=
  mods.filter (·.word == word)

/-- The value of the last modifier of a kind. -/
def last? (word : String) (mods : List LoopModifier) : Option Expr :=
  ((named word mods).filterMap value?).getLast?.map Enclosed.tree

/-- **An iterable with its modifiers.** If there is a limit or an offset, it is the part from the last
offset on, or from the beginning, as long as the last limit says, or up to the end. If there is a
`reversed`, it is filtered by `reverse`. -/
def modified (base : Expr) (mods : List LoopModifier) : Expr :=
  let start := (last? "offset" mods).getD (.const (.int 0) 0)
  let stop :=
    match last? "limit" mods with
    | some length => .binary .add start length 0
    | none => .const .none 0
  let part :=
    if (last? "limit" mods).isSome || (last? "offset" mods).isSome then
      .item base (.slice (some start) (some stop) none 0) 0
    else base
  if (named "reversed" mods).isEmpty then part else .filter (some part) "reverse" {} 0

theorem last?_cons (word : String) (x : LoopModifier) (mods : List LoopModifier) :
    last? word (x :: mods) =
      (last? word mods).or (if x.word = word then x.value?.map Enclosed.tree else none) := by
  unfold last? named
  rw [List.filter_cons]
  by_cases hword : x.word = word
  · rw [if_pos (beq_iff_eq.2 hword), if_pos hword, List.filterMap_cons]
    cases x.value? with
    | none => rw [Option.map_none, Option.or_none]
    | some value =>
      rw [List.getLast?_cons]
      cases ((mods.filter (·.word == word)).filterMap value?).getLast? <;> rfl
  · rw [if_neg (by simpa using hword), if_neg hword, Option.or_none]

/-- **The same modifiers in another order**, each kind in its own. -/
def SameByKind (mods mods' : List LoopModifier) : Prop :=
  ∀ word, named word mods = named word mods'

theorem SameByKind.modified {mods mods' : List LoopModifier} (h : SameByKind mods mods') (base : Expr) :
    modified base mods = modified base mods' := by
  unfold LoopModifier.modified last?
  rw [h "limit", h "offset", h "reversed"]

theorem SameByKind.mem {mods mods' : List LoopModifier} (h : SameByKind mods mods') {x : LoopModifier}
    (hx : x ∈ mods') : x ∈ mods := by
  have hnamed : x ∈ named x.word mods' := List.mem_filter.2 ⟨hx, beq_self_eq_true _⟩
  rw [← h x.word] at hnamed
  exact (List.mem_filter.1 hnamed).1

end LoopModifier

/-! ### Which modifiers count -/

namespace LoopModifiers

open LoopModifier

/-- The modifiers with one more. -/
def add (m : LoopModifiers) : LoopModifier → LoopModifiers
  | .reversed => { m with reversed := true }
  | .limit value => { m with limit := some value.tree }
  | .offset value => { m with offset := some value.tree }

/-- **The last modifier of a kind counts**, and any `reversed` does. -/
theorem foldl_add (mods : List LoopModifier) (m : LoopModifiers) :
    mods.foldl add m =
      { reversed := m.reversed || !(named "reversed" mods).isEmpty
        limit := (last? "limit" mods).or m.limit
        offset := (last? "offset" mods).or m.offset } := by
  induction mods generalizing m with
  | nil => simp [named, last?]
  | cons x mods ih =>
    rw [List.foldl_cons, ih]
    cases x <;> simp [add, named, last?_cons, word, value?]

/-- The same modifiers up to lines. -/
structure Alike (m m' : LoopModifiers) : Prop where
  reversed : m'.reversed = m.reversed
  limit : m'.limit.map Expr.withoutLines = m.limit.map Expr.withoutLines
  offset : m'.offset.map Expr.withoutLines = m.offset.map Expr.withoutLines

theorem Alike.slice (hm : m.Alike m') (line line' : Nat) :
    (m'.slice line').withoutLines = (m.slice line).withoutLines := by
  obtain ⟨flag, limit, offset⟩ := m
  obtain ⟨flag', limit', offset'⟩ := m'
  obtain ⟨-, hlimit, hoffset⟩ := hm
  cases limit <;> cases limit' <;> cases offset <;> cases offset' <;>
    simp_all [LoopModifiers.slice, Expr.withoutLines]

theorem Alike.apply (hm : m.Alike m') (he : e.Alike e') : (m.apply e).Alike (m'.apply e') := by
  have hlimit : m'.limit.isSome = m.limit.isSome := by simpa using congrArg Option.isSome hm.limit
  have hoffset : m'.offset.isSome = m.offset.isSome := by simpa using congrArg Option.isSome hm.offset
  have hpart : (if m.limit.isSome || m.offset.isSome then
        Expr.item e' (m'.slice e'.line) e'.line else e').withoutLines =
      (if m.limit.isSome || m.offset.isSome then
        Expr.item e (m.slice e.line) e.line else e).withoutLines := by
    split
    · rw [Expr.withoutLines, Expr.withoutLines, he.eq, hm.slice e.line e'.line]
    · exact he
  unfold Expr.Alike LoopModifiers.apply
  simp only [hlimit, hoffset, hm.reversed]
  split
  · simp only [Expr.withoutLines, Expr.optionWithoutLines_eq_map, Option.map_some, hpart]
  · exact hpart

/-- The modifiers that count, applied to an iterable. -/
theorem modified_alike (mods : List LoopModifier) (base : Expr) :
    (modified base mods).Alike ((mods.foldl add {}).apply base) := by
  rw [foldl_add]
  unfold modified LoopModifiers.apply LoopModifiers.slice
  cases last? "limit" mods <;> cases last? "offset" mods <;>
    cases (named "reversed" mods).isEmpty <;> simp [Expr.Alike, Expr.withoutLines]

end LoopModifiers

/-! ### Modifiers one by one -/

namespace LoopModifier

/-- **What ends a loop's iterable** with some modifiers: no name of a modifier, and nothing that goes on
with the last value, or with the iterable itself if no modifier stands behind it. -/
structure EndAt (mods : List LoopModifier) (k : Token.Kind) : Prop where
  word : ∀ x : LoopModifier, k ≠ .name x.word
  base : mods = [] → k.Ends false true ∧ k ≠ .symbol .comma
  last : ∀ x ∈ mods.getLast?, x.value?.isSome → k.Ends true true

variable {mods : List LoopModifier} {x : LoopModifier}

theorem stops_word (x : LoopModifier) : Token.Kind.Stops (.name x.word) 0 := by
  cases x <;> exact Token.Kind.stops rfl 0

/-- Some modifiers and what follows them begin with the name of a modifier, if there are any. -/
theorem exists_first (mods : List LoopModifier) (k : Token.Kind) (rest : List Token.Kind) :
    ∃ l more, mods.flatMap written ++ k :: rest = l :: more ∧
      (mods = [] ∧ l = k ∨ ∃ x : LoopModifier, l = .name x.word) := by
  cases mods with
  | nil => exact ⟨k, rest, rfl, .inl ⟨rfl, rfl⟩⟩
  | cons x mods => exact ⟨.name x.word, _, rfl, .inr ⟨x, rfl⟩⟩

/-- Behind an iterable stands a modifier or the end. -/
theorem EndAt.first (h : EndAt mods k) (rest : List Token.Kind) :
    ∃ l more, mods.flatMap written ++ k :: rest = l :: more ∧ l.Ends false true ∧
      l ≠ .symbol .comma := by
  obtain ⟨l, more, hmore, ⟨hnil, rfl⟩ | ⟨x, rfl⟩⟩ := exists_first mods k rest
  · exact ⟨l, more, hmore, h.base hnil⟩
  · exact ⟨_, more, hmore, x.stops_word.ends false true, nofun⟩

/-- Behind a modifier stands another one or the end, and ends its value. -/
theorem behind_first (h : ∀ y ∈ (x :: mods).getLast?, y.value?.isSome → k.Ends true true)
    (rest : List Token.Kind) :
    ∃ l more, mods.flatMap written ++ k :: rest = l :: more ∧
      (x.value?.isSome → l.Ends true true) := by
  obtain ⟨l, more, hmore, ⟨rfl, rfl⟩ | ⟨y, rfl⟩⟩ := exists_first mods k rest
  · exact ⟨l, more, hmore, h x rfl⟩
  · exact ⟨_, more, hmore, fun _ => y.stops_word.ends true true⟩

end LoopModifier

open LoopModifier

variable {x : LoopModifier} {mods : List LoopModifier}

theorem reads_modifierValue {v : Expr} {a b : List Token.Kind}
    (h : ReadsBelow n (g.expression true true) a b v.Alike) :
    ReadsBelow n (parseModifierValue g) (.symbol .colon :: a) b v.Alike :=
  fun j hj => Reads.demand nofun rfl fun _ _ => h j hj

/-- **A modifier with a value** is one round, whatever tokens the value is read from. -/
theorem leads_valued {v : Enclosed} {a b : List Token.Kind} (hx : x.value? = some v)
    (hvalue : ReadsBelow n (g.expression true true) a b v.tree.Alike) (hab : b.length ≤ a.length)
    (hm : m.Alike m') :
    Leads n (repeatFrom (parseNextModifier g) m') (repeatFrom (parseNextModifier g))
      (.name x.word :: .symbol .colon :: a) b (m.add x).Alike := by
  refine Leads.round ?_ (Nat.lt_succ_of_le (Nat.le_succ_of_le hab))
  cases x with
  | reversed => nomatch hx
  | limit w =>
    obtain rfl := Option.some.inj hx
    refine Reads.stays rfl (Reads.skips_lt nofun rfl ?_)
    refine (reads_modifierValue hvalue).bind fun e he => ?_
    exact Reads.below (Reads.pure ⟨_, rfl, hm.reversed, congrArg some he.eq, hm.offset⟩)
  | offset w =>
    obtain rfl := Option.some.inj hx
    refine Reads.stays rfl (Reads.stays rfl (Reads.skips_lt nofun rfl ?_))
    refine (reads_modifierValue hvalue).bind fun e he => ?_
    exact Reads.below (Reads.pure ⟨_, rfl, hm.reversed, hm.limit, congrArg some he.eq⟩)

/-- **One modifier** as it is written is one round. -/
theorem leads_modifier (hx : ∀ v ∈ x.value?, v.ReadBy n g) (hk : x.value?.isSome → k.Ends true true)
    (hm : m.Alike m') :
    Leads n (repeatFrom (parseNextModifier g) m') (repeatFrom (parseNextModifier g))
      (x.written ++ k :: rest) (k :: rest) (m.add x).Alike := by
  have hlength (v : Enclosed) : (k :: rest).length ≤ (v.written ++ k :: rest).length := by
    simp
  cases x with
  | reversed =>
    refine Leads.round (Reads.skips nofun rfl ?_) (Nat.lt_succ_self _)
    exact Reads.pure ⟨_, rfl, rfl, hm.limit, hm.offset⟩
  | limit v => exact leads_valued rfl ((hx v rfl).expression rest (hk rfl)) (hlength v) hm
  | offset v => exact leads_valued rfl ((hx v rfl).expression rest (hk rfl)) (hlength v) hm

/-- **All modifiers**, one after the other. -/
theorem leads_modifiers (hx : ∀ x ∈ mods, ∀ v ∈ x.value?, v.ReadBy n g)
    (hk : ∀ x ∈ mods.getLast?, x.value?.isSome → k.Ends true true) (hm : m.Alike m') :
    Leads n (repeatFrom (parseNextModifier g) m') (repeatFrom (parseNextModifier g))
      (mods.flatMap written ++ k :: rest) (k :: rest) (mods.foldl LoopModifiers.add m).Alike := by
  induction mods generalizing m m' with
  | nil => exact Leads.refl hm
  | cons x mods ih =>
    obtain ⟨l, more, hmore, hl⟩ := behind_first hk rest
    have hlast : ∀ y ∈ mods.getLast?, y.value?.isSome → k.Ends true true := by
      intro y hy
      refine hk y ?_
      rw [List.getLast?_cons, Option.mem_def.1 hy]
      rfl
    rw [List.flatMap_cons, List.append_assoc, List.foldl_cons, hmore]
    refine (leads_modifier (hx x List.mem_cons_self) hl hm).trans fun y hy => ?_
    rw [← hmore]
    exact ih (fun y hy => hx y (List.mem_cons_of_mem x hy)) hlast hy

/-- The modifiers end at a token that is the name of none. -/
theorem reads_modifiers_end (hk : ∀ x : LoopModifier, k ≠ .name x.word) (m : LoopModifiers) :
    Reads n (repeatFrom (parseNextModifier g) m) (k :: rest) (k :: rest) (fun y => y = m) := by
  have hword (word : String) (h : k ≠ .name word) : k.fits (.name word) = false := by
    cases k with
    | name text => exact beq_eq_false_iff_ne.2 fun heq => h (heq ▸ rfl)
    | _ => rfl
  refine Reads.stop (Reads.stays (hword _ (hk .reversed)) ?_)
  refine Reads.stays (hword _ (hk (.limit ⟨[], default⟩))) ?_
  refine Reads.stays (hword _ (hk (.offset ⟨[], default⟩))) ?_
  exact Reads.pure ⟨m, rfl, rfl⟩

/-! ### Whole iterables -/

/-- **Behind the iterable** its modifiers are read, and applied to it. -/
theorem reads_iterable_modified {base : Enclosed} {l : Token.Kind} {more b : List Token.Kind}
    (hbase : base.ReadBy n g) (hl : l.Ends false true) (hcomma : l ≠ .symbol .comma)
    (hmodifiers : Reads n (parseModifiers g) (l :: more) b
      (mods.foldl LoopModifiers.add {}).Alike) :
    Reads n (parseIterable g) (base.written ++ l :: more) b (modified base.tree mods).Alike := by
  refine (reads_tuple_one (fun _ _ => rfl) hcomma (hbase.reads hl)).bind fun e he => ?_
  refine hmodifiers.bind fun m hm => Reads.pure ?_
  exact (hm.apply he).eq.trans (LoopModifiers.modified_alike mods base.tree).eq

/-- **An iterable with its modifiers.** -/
theorem reads_modified {base : Enclosed} (hbase : base.ReadBy n g)
    (hx : ∀ x ∈ mods, ∀ v ∈ x.value?, v.ReadBy n g) (hk : EndAt mods k) :
    Reads n (parseIterable g) (base.written ++ (mods.flatMap written ++ k :: rest)) (k :: rest)
      (modified base.tree mods).Alike := by
  have hmodifiers : Reads n (parseModifiers g) (mods.flatMap written ++ k :: rest) (k :: rest)
      (mods.foldl LoopModifiers.add {}).Alike :=
    (leads_modifiers hx hk.last ⟨rfl, rfl, rfl⟩).reads fun m hm =>
      (reads_modifiers_end hk.word m).imp fun _ hy => hy ▸ hm
  obtain ⟨l, more, hmore, hl, hcomma⟩ := hk.first rest
  rw [hmore] at hmodifiers ⊢
  exact reads_iterable_modified hbase hl hcomma hmodifiers

/-! ### A condition behind the last value -/

/-- **A value with a condition** behind it is one conditional. -/
theorem reads_conditionalValue {v c : Enclosed} (hv : v.ReadBy n g) (hc : c.ReadBy n g)
    (hk : k.Ends true true) :
    Reads n (parseExpression g true true) (v.written ++ .name "if" :: (c.written ++ k :: rest))
      (k :: rest) (Expr.conditional c.tree v.tree none 0).Alike := by
  have hword (word : String) (h : Token.Kind.tier? (.name word) = some 0) :
      k.fits (.name word) = false := by
    cases k with
    | name text => exact beq_eq_false_iff_ne.2 fun heq => hk.ne_condition h (heq ▸ rfl)
    | _ => rfl
  have hoperand {x : Enclosed} {l : Token.Kind} {more : List Token.Kind} (hx : x.ReadBy n g)
      (hl : l.Ends false true) :
      Reads n (parseOr g true) (x.written ++ l :: more) (l :: more) x.tree.Alike :=
    show Reads n (parseExpression g false true) _ _ _ from hx.reads hl
  have hcondition : Reads n (parseOr g true) (c.written ++ k :: rest) (k :: rest) c.tree.Alike :=
    hoperand hc fun tier h => (hk tier h).imp (fun hc => nomatch hc.2) id
  have hfirst : Reads n (parseOr g true) (v.written ++ .name "if" :: (c.written ++ k :: rest))
      (.name "if" :: (c.written ++ k :: rest)) v.tree.Alike :=
    hoperand hv fun tier h => .inl ⟨(Option.some.inj h).symm, rfl⟩
  have helse : Reads n (parseElse? g) (k :: rest) (k :: rest) (· = none) :=
    Reads.stays (hword "else" rfl) (Reads.pure rfl)
  refine Reads.see fun line span => hfirst.bind fun x hx => ?_
  refine Reads.round ?_ (length_behind_lt ..)
    fun y (hy : (Expr.conditional c.tree v.tree none 0).Alike y.1) => ?_
  · refine Reads.skips nofun rfl (hcondition.bind fun y hy => helse.bind fun o ho => ?_)
    subst ho
    refine Reads.see fun line span => Reads.pure ⟨_, rfl, ?_⟩
    simp only [Expr.Alike, Expr.withoutLines, Expr.optionWithoutLines_eq_map, hx.eq, hy.eq,
      Option.map_none]
  · refine Reads.stop (Reads.stays (hword "if" rfl) ?_)
    exact Reads.pure ⟨y.1, rfl, hy⟩

/-- **In the grammar of an environment**, where the value of a modifier is read. -/
theorem Environment.Spells.conditionalValue {v c : Enclosed} (hv : env.Spells v.kinds v.tree)
    (hc : env.Spells c.kinds c.tree) (hk : k.Ends true true) :
    ReadsBelow n (env.grammar.expression true true)
      (v.written ++ .name "if" :: (c.written ++ k :: rest)) (k :: rest)
      (Expr.conditional c.tree v.tree none 0).Alike :=
  fun _ _ s hs _ =>
    reads_conditionalValue (n := s.weight) hv.readBy_below hc.readBy_below hk s hs (Nat.le_refl _)

/-- A value that depends on a condition. -/
def Enclosed.under (v c : Enclosed) : Enclosed :=
  ⟨v.written ++ .name "if" :: c.written, .conditional c.tree v.tree none 0⟩

namespace LoopModifier

/-- **A modifier whose value depends on a condition.** -/
def under (c : Enclosed) : LoopModifier → LoopModifier
  | reversed => reversed
  | limit v => limit (v.under c)
  | offset v => offset (v.under c)

theorem word_under (c : Enclosed) (x : LoopModifier) : (x.under c).word = x.word := by
  cases x <;> rfl

theorem value?_under (c : Enclosed) (x : LoopModifier) :
    (x.under c).value? = x.value?.map (·.under c) := by
  cases x <;> rfl

theorem written_of_value {v : Enclosed} (h : x.value? = some v) :
    x.written = .name x.word :: .symbol .colon :: v.written := by
  rw [written, h]

end LoopModifier

/-- **One modifier with a condition** behind it is one round. -/
theorem leads_modifier_if {v c : Enclosed} (hx : x.value? = some v) (hv : env.Spells v.kinds v.tree)
    (hc : env.Spells c.kinds c.tree) (hk : k.Ends true true) (hm : m.Alike m') :
    Leads n (repeatFrom (parseNextModifier env.grammar) m')
      (repeatFrom (parseNextModifier env.grammar))
      (x.written ++ .name "if" :: (c.written ++ k :: rest)) (k :: rest) (m.add (x.under c)).Alike := by
  have hvalue : (x.under c).value? = some (v.under c) := by rw [value?_under, hx, Option.map_some]
  have hlength : (k :: rest).length ≤ (v.written ++ .name "if" :: (c.written ++ k :: rest)).length := by
    simp
    omega
  rw [written_of_value hx, ← word_under c x]
  exact leads_valued hvalue (hv.conditionalValue hc hk) hlength hm

/-- **A condition behind the last modifier** belongs to its value, if it has one. -/
theorem reads_modified_if {base c v : Enclosed} (hbase : env.Spells base.kinds base.tree)
    (hvalues : ∀ y ∈ mods, ∀ v ∈ y.value?, env.Spells v.kinds v.tree) (hx : x.value? = some v)
    (hv : env.Spells v.kinds v.tree) (hc : env.Spells c.kinds c.tree)
    (hword : ∀ y : LoopModifier, k ≠ .name y.word) (hk : k.Ends true true) :
    Reads n (parseIterable env.grammar)
      (base.written ++ ((mods ++ [x]).flatMap written ++ .name "if" :: (c.written ++ k :: rest)))
      (k :: rest) (modified base.tree (mods ++ [x.under c])).Alike := by
  obtain ⟨l, more, hmore, hl⟩ :=
    exists_first (mods ++ [x]) (.name "if") (c.written ++ k :: rest)
  have hne : mods ++ [x] ≠ [] := List.append_ne_nil_of_right_ne_nil _ (List.cons_ne_nil _ _)
  obtain ⟨y, rfl⟩ := hl.resolve_left fun h => hne h.1
  -- the modifiers before the last one end at its name
  have hlast : (mods ++ [x]).flatMap written ++ .name "if" :: (c.written ++ k :: rest) =
      mods.flatMap written ++ .name x.word ::
        (x.written.tail ++ .name "if" :: (c.written ++ k :: rest)) := by
    rw [List.flatMap_append, List.flatMap_singleton, List.append_assoc]
    rfl
  have hmodifiers : Reads n (parseModifiers env.grammar)
      ((mods ++ [x]).flatMap written ++ .name "if" :: (c.written ++ k :: rest)) (k :: rest)
      ((mods ++ [x.under c]).foldl LoopModifiers.add {}).Alike := by
    rw [hlast, List.foldl_append]
    refine ((leads_modifiers (fun y hy v hv => (hvalues y hy v hv).readBy_grammar)
      (fun _ _ _ => x.stops_word.ends true true) ⟨rfl, rfl, rfl⟩).trans fun m hm =>
        leads_modifier_if hx hv hc hk hm).reads fun m hm => ?_
    exact (reads_modifiers_end hword m).imp fun _ hy => hy ▸ hm
  rw [hmore] at hmodifiers ⊢
  exact reads_iterable_modified hbase.readBy_grammar (y.stops_word.ends false true) nofun hmodifiers

/-- **Loop modifiers compose and commute.** Behind an iterable in parentheses, modifiers in any order and
number are read, and nothing further: the iterable is cut to the part that the last offset and the last
limit say, and then turned around if there is a `reversed`. The same modifiers, mixed in another way
without changing the order of those of one kind, give the same tree up to lines.

A condition on the items of the loop stands behind `reversed`, or behind an iterable without modifiers.
Behind a limit or an offset in last place the value takes it, and the loop has no condition of its
own. -/
theorem loop_modifiers (env : Environment) (base : Enclosed) (mods : List LoopModifier)
    (hbase : env.Spells base.kinds base.tree)
    (hvalues : ∀ x ∈ mods, ∀ v ∈ x.value?, env.Spells v.kinds v.tree) :
    (∀ s k rest, EndAt mods k → s.ahead = base.written ++ (mods.flatMap written ++ k :: rest) →
      ∃ e t, parseIterable env.grammar s = .ok e t ∧ (modified base.tree mods).Alike e ∧
        t.ahead = k :: rest ∧
        ∀ mods' s', SameByKind mods mods' → EndAt mods' k →
          s'.ahead = base.written ++ (mods'.flatMap written ++ k :: rest) →
          ∃ e' t', parseIterable env.grammar s' = .ok e' t' ∧ e.Alike e' ∧ t'.ahead = k :: rest) ∧
    ∀ init x v c s k rest, mods = init ++ [x] → x.value? = some v → env.Spells c.kinds c.tree →
      (∀ y : LoopModifier, k ≠ .name y.word) → k.Ends true true →
      s.ahead = base.written ++ (mods.flatMap written ++ .name "if" :: (c.written ++ k :: rest)) →
      ∃ e t, parseIterable env.grammar s = .ok e t ∧
        (modified base.tree (init ++ [x.under c])).Alike e ∧ t.ahead = k :: rest ∧
        parseLoopTest? env.grammar t = .ok none t := by
  have hread (mods' : List LoopModifier) (hsub : ∀ x ∈ mods', x ∈ mods) {k : Token.Kind}
      {rest : List Token.Kind} (hk : EndAt mods' k) (s : ParserState)
      (hs : s.ahead = base.written ++ (mods'.flatMap written ++ k :: rest)) :
      ∃ e t, parseIterable env.grammar s = .ok e t ∧ (modified base.tree mods').Alike e ∧
        t.ahead = k :: rest := by
    obtain ⟨e, t, he, ht, -, hsame⟩ := reads_modified hbase.readBy_grammar
      (fun x hx v hv => (hvalues x (hsub x hx) v hv).readBy_grammar) hk s hs (Nat.le_refl _)
    exact ⟨e, t, he, hsame, ht⟩
  refine ⟨fun s k rest hk hs => ?_, ?_⟩
  · obtain ⟨e, t, he, hsame, ht⟩ := hread mods (fun _ hx => hx) hk s hs
    refine ⟨e, t, he, hsame, ht, fun mods' s' hkinds hk' hs' => ?_⟩
    obtain ⟨e', t', he', hsame', ht'⟩ := hread mods' (fun _ => hkinds.mem) hk' s' hs'
    rw [← hkinds.modified] at hsame'
    exact ⟨e', t', he', hsame'.eq.trans hsame.eq.symm, ht'⟩
  · rintro init x v c s k rest rfl hx hc hword hk hs
    have hinit : ∀ y ∈ init, ∀ v ∈ y.value?, env.Spells v.kinds v.tree :=
      fun y hy => hvalues y (List.mem_append_left _ hy)
    have hv : env.Spells v.kinds v.tree := hvalues x (by simp) v hx
    obtain ⟨e, t, he, ht, -, hsame⟩ :=
      reads_modified_if (n := s.weight) hbase hinit hx hv hc hword hk s hs (Nat.le_refl _)
    have hif : t.stream.current.isName "if" = false :=
      Token.isName_eq_false ((List.cons.inj ht).1 ▸ hk.ne_condition rfl)
    refine ⟨e, t, he, hsame, ht, ?_⟩
    exact bind_eq_ok.2 ⟨false, t, skipIf_eq_false.2 ⟨rfl, hif⟩, rfl⟩

/-- `(x) limit: (y) reversed offset: (z)` is `x[z : z + y]` in reverse, and in `(x) limit: (y) if (z)`
the limit is `y if z`. -/
theorem loop_modifiers_mixed :
    let x : Expr := .name "x" .load 1
    let y : Expr := .name "y" .load 1
    let z : Expr := .name "z" .load 1
    let s := ParserState.before [.symbol .lParen, .name "x", .symbol .rParen, .name "limit",
      .symbol .colon, .symbol .lParen, .name "y", .symbol .rParen, .name "reversed", .name "offset",
      .symbol .colon, .symbol .lParen, .name "z", .symbol .rParen, .mark .blockEnd]
    let s' := ParserState.before [.symbol .lParen, .name "x", .symbol .rParen, .name "limit",
      .symbol .colon, .symbol .lParen, .name "y", .symbol .rParen, .name "if", .symbol .lParen,
      .name "z", .symbol .rParen, .mark .blockEnd]
    (∃ e t, parseIterable (Environment.grammar {}) s = .ok e t ∧
      (Expr.filter (some (.item x (.slice (some z) (some (.binary .add z y 0)) none 0) 0)) "reverse" {}
        0).Alike e ∧
      t.ahead = [.mark .blockEnd, .mark .endOfTemplate]) ∧
    ∃ e t, parseIterable (Environment.grammar {}) s' = .ok e t ∧
      (Expr.item x (.slice (some (.const (.int 0) 0))
        (some (.binary .add (.const (.int 0) 0) (.conditional z y none 0) 0)) none 0) 0).Alike e ∧
      t.ahead = [.mark .blockEnd, .mark .endOfTemplate] := by
  intro x y z s s'
  have hx : Environment.Spells {} [.name "x"] x := Environment.spells_name {} (by decide) 1
  have hy : Environment.Spells {} [.name "y"] y := Environment.spells_name {} (by decide) 1
  have hz : Environment.Spells {} [.name "z"] z := Environment.spells_name {} (by decide) 1
  let mods : List LoopModifier := [.limit ⟨[.name "y"], y⟩, .reversed, .offset ⟨[.name "z"], z⟩]
  have hvalues : ∀ m ∈ mods, ∀ v ∈ m.value?, Environment.Spells {} v.kinds v.tree := by
    intro m hm v hv
    simp only [mods, List.mem_cons, List.not_mem_nil, or_false] at hm
    rcases hm with rfl | rfl | rfl
    · obtain rfl := Option.some.inj hv
      exact hy
    · nomatch hv
    · obtain rfl := Option.some.inj hv
      exact hz
  have hstops : Token.Kind.Ends true true (.mark .blockEnd) := (Token.Kind.stops rfl 0).ends true true
  have hend : EndAt mods (.mark .blockEnd) := ⟨nofun, nofun, fun _ _ _ => hstops⟩
  constructor
  · obtain ⟨e, t, he, hsame, ht, -⟩ :=
      (loop_modifiers {} ⟨[.name "x"], x⟩ mods hx hvalues).1 s _ _ hend rfl
    exact ⟨e, t, he, hsame, ht⟩
  · have hlimit : ∀ m ∈ [LoopModifier.limit ⟨[.name "y"], y⟩], ∀ v ∈ m.value?,
        Environment.Spells {} v.kinds v.tree := by
      intro m hm v hv
      obtain rfl := List.mem_singleton.1 hm
      obtain rfl := Option.some.inj hv
      exact hy
    obtain ⟨e, t, he, hsame, ht, -⟩ :=
      (loop_modifiers {} ⟨[.name "x"], x⟩ _ hx hlimit).2 [] _ _ ⟨[.name "z"], z⟩ s' (.mark .blockEnd) _
        rfl rfl hz nofun hstops rfl
    exact ⟨e, t, he, hsame, ht⟩

end LiquidTemplate
