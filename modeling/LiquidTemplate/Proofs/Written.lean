import LiquidTemplate.Grammar.Primary
import LiquidTemplate.Text.Search

/-!
# Expressions as they are written

An expression is written as a list of kinds of tokens. A style says how many parentheses stand in
it; in every style they are enough for the grammar to find the expression again.

* `Expr.level`: how tightly an expression binds, from the conditional to a single name.
* `Style`, `Style.full`, `Style.sparse`: parentheses around every subexpression, or around those
  only that bind more loosely than their place allows.
* `Expr.written`: the tokens of an expression.
* `Expr.Readable`: the expressions that have such tokens.
* `Token.Kind.tier?`: the level at which a token goes on with an expression before it.
* `Readable.begins`: the first token of an expression.
-/

namespace LiquidTemplate

/-! ### Levels -/

/-- The level of an operator with two operands. -/
def BinaryOp.level : BinaryOp → Nat
  | add | sub => 5
  | mul | div | floorDiv | mod => 7
  | pow => 8

/-- The symbol of an operator with two operands. -/
def BinaryOp.symbol : BinaryOp → Symbol
  | add => .add
  | sub => .sub
  | mul => .mul
  | div => .div
  | floorDiv => .floorDiv
  | mod => .mod
  | pow => .pow

/-- The tokens of a comparison. -/
def Comparison.kinds : Comparison → List Token.Kind
  | eq => [.symbol .eq]
  | ne => [.symbol .ne]
  | lt => [.symbol .lt]
  | ltEq => [.symbol .ltEq]
  | gt => [.symbol .gt]
  | gtEq => [.symbol .gtEq]
  | isIn => [.name "in"]
  | notIn => [.name "not", .name "in"]

/-- The token of a constant. -/
def Constant.kind : Constant → Token.Kind
  | none => .name "none"
  | bool true => .name "true"
  | bool false => .name "false"
  | int value => .integer value
  | float value => .float value
  | str value => .string value

/-- **Level of an expression.** The higher it is, the tighter the expression binds: conditionals,
`or`, `and`, `not`, comparisons, sums, `~`, products, powers, filters and tests, signs, what stands
behind a primary, and primaries. -/
def Expr.level : Expr → Nat
  | conditional .. => 0
  | or .. => 1
  | and .. => 2
  | not .. => 3
  | compare .. => 4
  | concat .. => 6
  | binary op .. => op.level
  | filter .. | test .. => 9
  | neg .. | pos .. => 10
  | member .. | item .. | call .. => 11
  | const .. | templateData .. | name .. | internalName .. | tuple .. | list .. | dict ..
  | slice .. => 12

/-! ### Writing -/

/-- Tokens between parentheses. -/
def parens (ks : List Token.Kind) : List Token.Kind :=
  .symbol .lParen :: (ks ++ [.symbol .rParen])

/-- Stretches of tokens, each behind a separator. The first has one only if something stands before
it. -/
def following (separator : Token.Kind) (later : Bool) : List (List Token.Kind) → List Token.Kind
  | [] => []
  | ks :: kss => (if later then [separator] else []) ++ (ks ++ following separator true kss)

/-- Stretches of tokens with a separator between neighbours. -/
def separated (separator : Token.Kind) (kss : List (List Token.Kind)) : List Token.Kind :=
  following separator false kss

theorem following_append (separator : Token.Kind) (later : Bool) (kss lss : List (List Token.Kind)) :
    following separator later (kss ++ lss) =
      following separator later kss ++ following separator (later || !kss.isEmpty) lss := by
  induction kss generalizing later with
  | nil => simp [following]
  | cons ks kss ih => simp [following, ih]

/-- What follows an item is the separator, or what stands behind all of them. -/
theorem following_first (separator k : Token.Kind) (kss : List (List Token.Kind))
    (rest : List Token.Kind) :
    ∃ l more, following separator true kss ++ k :: rest = l :: more ∧ (l = separator ∨ l = k) := by
  cases kss with
  | nil => exact ⟨_, _, rfl, .inr rfl⟩
  | cons ks kss => exact ⟨_, _, rfl, .inl rfl⟩

/-- Items of a tuple, each with a comma behind it. -/
def tupleOf (kss : List (List Token.Kind)) : List Token.Kind :=
  parens (kss.flatMap (· ++ [.symbol .comma]))

/-- The parts of a name with dots. -/
def nameParts (name : String) : List String :=
  (Text.split ['.'] name.toList).map String.ofList

/-- The tokens of a name with dots. -/
def nameKinds (name : String) : List Token.Kind :=
  separated (.symbol .dot) ((nameParts name).map fun part => [.name part])

/-- A name without dots is one token. -/
theorem nameKinds_eq_singleton {name : String} (h : '.' ∉ name.toList) :
    nameKinds name = [.name name] := by
  have hcut (cs : List Char) (hcs : '.' ∉ cs) : Text.cut? ['.'] cs = none := by
    induction cs with
    | nil => rfl
    | cons c cs ih =>
        obtain ⟨hc, hcs⟩ := by simpa using hcs
        simp [Text.cut?, Text.after?, hc, ih hcs]
  have hsplit : Text.split ['.'] name.toList = [name.toList] := by
    rw [Text.split]
    split
    · next hsome =>
        rw [hcut _ h] at hsome
        cases hsome
    · rfl
  simp [nameKinds, nameParts, hsplit, separated, following]

/-- **Style of writing**: whether operands stand in parentheses that they do not need, and whether
a filter without arguments has an empty argument list. -/
structure Style where
  wraps : Bool
  lists : Bool

namespace Style

/-- Every subexpression in parentheses, and every argument list. -/
def full : Style := ⟨true, true⟩

/-- Only what is needed. -/
def sparse : Style := ⟨false, false⟩

/-- **Operand** at a place where an expression of at least the given level can stand; a looser one
needs parentheses. -/
def operand (st : Style) (place : Nat) (e : Expr) (ks : List Token.Kind) : List Token.Kind :=
  if st.wraps || e.level < place then parens ks else ks

end Style

namespace Expr

/-- Whether an expression is a slice, which only stands between brackets. -/
def isSlice : Expr → Bool
  | slice .. => true
  | _ => false

/-- A subscript: a slice as it is, any other expression in parentheses. -/
def subscript (e : Expr) (ks : List Token.Kind) : List Token.Kind :=
  if e.isSlice then ks else parens ks

mutual

/-- **The tokens of an expression.** -/
def written (st : Style) : Expr → List Token.Kind
  | const value _ => [value.kind]
  | templateData _ _ | internalName _ _ => []
  | name n _ _ => [.name n]
  | tuple items _ _ =>
    tupleOf (writtenEach st (fun _ => parens) items)
  | list items _ =>
    .symbol .lBracket :: (separated (.symbol .comma) (writtenEach st (fun _ => parens) items) ++
      [.symbol .rBracket])
  | dict entries _ =>
    .symbol .lBrace :: (separated (.symbol .comma) (writtenEntries st entries) ++
      [.symbol .rBrace])
  | member node attr _ => parens (written st node) ++ [.symbol .dot, .name attr]
  | item node (tuple items _ _) _ =>
    parens (written st node) ++ .symbol .lBracket :: ((
      if 2 ≤ items.length then separated (.symbol .comma) (writtenEach st subscript items)
      else parens (tupleOf (writtenEach st (fun _ => parens) items))) ++ [.symbol .rBracket])
  | item node arg _ =>
    parens (written st node) ++ .symbol .lBracket :: (subscript arg (written st arg) ++
      [.symbol .rBracket])
  | slice start stop step _ =>
    writtenOption st [] (fun _ => parens) start ++ .symbol .colon ::
      (writtenOption st [] (fun _ => parens) stop ++
        writtenOption st [.symbol .colon] (fun _ => parens) step)
  | call node args _ => parens (written st node) ++ writtenArguments st args
  | filter (some node) n args _ =>
    st.operand 9 node (written st node) ++ .symbol .pipe :: (nameKinds n ++
      if args.isEmpty && !st.lists then [] else writtenArguments st args)
  | filter none n args _ => nameKinds n ++ writtenArguments st args
  | test node n args _ =>
    parens (written st node) ++ .name "is" :: (nameKinds n ++ writtenArguments st args)
  | conditional cond yes no _ =>
    st.operand 1 yes (written st yes) ++ .name "if" :: (st.operand 1 cond (written st cond) ++
      writtenOption st [.name "else"] (st.operand 1) no)
  | or left right _ =>
    st.operand 1 left (written st left) ++ .name "or" :: st.operand 2 right (written st right)
  | and left right _ =>
    st.operand 2 left (written st left) ++ .name "and" :: st.operand 3 right (written st right)
  | not node _ => .name "not" :: st.operand 3 node (written st node)
  | neg node _ => .symbol .sub :: st.operand 10 node (written st node)
  | pos node _ => .symbol .add :: st.operand 10 node (written st node)
  | binary op left right _ =>
    st.operand op.level left (written st left) ++ .symbol op.symbol ::
      st.operand (op.level + 1) right (written st right)
  | concat nodes _ => separated (.symbol .tilde) (writtenEach st (st.operand 7) nodes)
  | compare e operands _ => st.operand 5 e (written st e) ++ writtenOperands st operands

/-- The tokens of each expression of a list, put into parentheses by `wrap`. -/
def writtenEach (st : Style) (wrap : Expr → List Token.Kind → List Token.Kind) :
    List Expr → List (List Token.Kind)
  | [] => []
  | e :: es => wrap e (written st e) :: writtenEach st wrap es

/-- An expression that can be left out, put into parentheses by `wrap`, behind `before`. -/
def writtenOption (st : Style) (before : List Token.Kind)
    (wrap : Expr → List Token.Kind → List Token.Kind) : Option Expr → List Token.Kind
  | none => []
  | some e => before ++ wrap e (written st e)

/-- The tokens of each entry of a dictionary. -/
def writtenEntries (st : Style) : List (Entry Expr) → List (List Token.Kind)
  | [] => []
  | ⟨key, value, _⟩ :: es =>
    (parens (written st key) ++ .symbol .colon :: parens (written st value)) :: writtenEntries st es

/-- The tokens of each argument with a name. -/
def writtenKeywords (st : Style) : List (Keyword Expr) → List (List Token.Kind)
  | [] => []
  | ⟨key, value, _⟩ :: ks =>
    (.name key :: .symbol .assign :: parens (written st value)) :: writtenKeywords st ks

/-- The tokens of an argument that is spread out, if it is there. -/
def writtenSpread (st : Style) (mark : Symbol) : Option Expr → List (List Token.Kind)
  | none => []
  | some e => [.symbol mark :: parens (written st e)]

/-- **Argument list**: arguments in order, then those with names, then those spread out. -/
def writtenArguments (st : Style) : Arguments Expr → List Token.Kind
  | ⟨positional, keywords, spread, spreadKeywords⟩ =>
    parens (separated (.symbol .comma)
      (writtenEach st (fun _ => parens) positional ++ writtenKeywords st keywords ++
        writtenSpread st .mul spread ++ writtenSpread st .pow spreadKeywords))

/-- The links of a chain of comparisons. -/
def writtenOperands (st : Style) : List (Operand Expr) → List Token.Kind
  | [] => []
  | ⟨op, e⟩ :: os => op.kinds ++ st.operand 5 e (written st e) ++ writtenOperands st os

end

theorem writtenEach_eq_map (st : Style) (wrap : Expr → List Token.Kind → List Token.Kind)
    (es : List Expr) : writtenEach st wrap es = es.map fun e => wrap e (written st e) := by
  induction es with
  | nil => rfl
  | cons e es ih => rw [writtenEach, ih, List.map_cons]

theorem writtenEntries_eq_map (st : Style) (es : List (Entry Expr)) :
    writtenEntries st es = es.map fun x =>
      parens (written st x.key) ++ .symbol .colon :: parens (written st x.value) := by
  induction es with
  | nil => rfl
  | cons e es ih => rw [writtenEntries, ih, List.map_cons]

theorem writtenKeywords_eq_map (st : Style) (ks : List (Keyword Expr)) :
    writtenKeywords st ks = ks.map fun k =>
      .name k.key :: .symbol .assign :: parens (written st k.value) := by
  induction ks with
  | nil => rfl
  | cons k ks ih => rw [writtenKeywords, ih, List.map_cons]

theorem writtenSpread_eq_map (st : Style) (mark : Symbol) (e : Option Expr) :
    writtenSpread st mark e = e.toList.map fun e => .symbol mark :: parens (written st e) := by
  cases e <;> rfl

/-- What stands between the brackets of an item: several subscripts, or one. -/
def subscripts (st : Style) : Expr → List Token.Kind
  | tuple items _ _ =>
    if 2 ≤ items.length then separated (.symbol .comma) (writtenEach st subscript items)
    else parens (tupleOf (writtenEach st (fun _ => parens) items))
  | arg => subscript arg (written st arg)

theorem written_item (st : Style) (node arg : Expr) (line : Nat) :
    written st (item node arg line) =
      parens (written st node) ++
        .symbol .lBracket :: (subscripts st arg ++ [.symbol .rBracket]) := by
  cases arg <;> rfl

/-- The subscripts of an item: those of a tuple of at least two, or a single one. -/
def subscriptList : Expr → List Expr
  | tuple items c l => if 2 ≤ items.length then items else [tuple items c l]
  | arg => [arg]

/-! ### What can be written -/

/-- The names that expressions begin with or stand for constants. -/
def reservedNames : List String :=
  ["not", "true", "false", "none", "True", "False", "None"]

/-- **Expressions with tokens of their own.** Names and tuples are read, chains have links, and
slices stand only between brackets, alone or among several subscripts. -/
inductive Readable : Expr → Prop
  | const {value line} : Readable (const value line)
  | name {n line} (hn : n ∉ reservedNames) : Readable (name n .load line)
  | tuple {items line} (hi : ∀ e ∈ items, Readable e) : Readable (tuple items .load line)
  | list {items line} (hi : ∀ e ∈ items, Readable e) : Readable (list items line)
  | dict {entries line} (hk : ∀ x ∈ entries, Readable x.key)
      (hv : ∀ x ∈ entries, Readable x.value) : Readable (dict entries line)
  | member {node attr line} (hn : Readable node) : Readable (member node attr line)
  | item {node arg line} (hn : Readable node)
      (hc : ∀ items c l, arg = tuple items c l → c = .load)
      (ha : ∀ e ∈ arg.subscriptList, e.isSlice = false → Readable e)
      (hp : ∀ e ∈ arg.subscriptList, e.isSlice = true → ∀ x ∈ e.children, Readable x) :
      Readable (item node arg line)
  | call {node args line} (hn : Readable node) (ha : ∀ e ∈ args.values, Readable e) :
      Readable (call node args line)
  | filter {node n args line} (hn : Readable node) (ha : ∀ e ∈ args.values, Readable e) :
      Readable (filter (some node) n args line)
  | test {node n args line} (hn : Readable node) (ha : ∀ e ∈ args.values, Readable e)
      (hnot : (nameParts n).head? ≠ some "not") : Readable (test node n args line)
  | conditional {cond yes no line} (hc : Readable cond) (hy : Readable yes)
      (hn : ∀ e ∈ no, Readable e) : Readable (conditional cond yes no line)
  | and {left right line} (hl : Readable left) (hr : Readable right) :
      Readable (and left right line)
  | or {left right line} (hl : Readable left) (hr : Readable right) : Readable (or left right line)
  | not {node line} (hn : Readable node) : Readable (not node line)
  | neg {node line} (hn : Readable node) : Readable (neg node line)
  | pos {node line} (hn : Readable node) : Readable (pos node line)
  | binary {op left right line} (hl : Readable left) (hr : Readable right) :
      Readable (binary op left right line)
  | concat {nodes line} (hl : 2 ≤ nodes.length) (hn : ∀ e ∈ nodes, Readable e) :
      Readable (concat nodes line)
  | compare {e operands line} (he : Readable e) (hl : operands ≠ [])
      (ho : ∀ o ∈ operands, Readable o.expr) : Readable (compare e operands line)

end Expr

/-! ### First and following tokens -/

namespace Token.Kind

/-- **Tier of a token** behind an expression: the level at which it goes on with it. -/
def tier? : Token.Kind → Option Nat
  | .name n =>
    if n = "if" ∨ n = "else" then some 0
    else if n = "or" then some 1
    else if n = "and" then some 2
    else if n = "in" ∨ n = "not" then some 4
    else if n = "is" then some 9
    else none
  | .symbol s =>
    match s with
    | .eq | .ne | .lt | .ltEq | .gt | .gtEq => some 4
    | .add | .sub => some 5
    | .tilde => some 6
    | .mul | .div | .floorDiv | .mod => some 7
    | .pow => some 8
    | .pipe => some 9
    | .dot | .lBracket | .lParen => some 11
    | _ => none
  | _ => none

/-- **The end of an expression** of at least a level: what follows goes on with looser ones only. -/
def Stops (k : Token.Kind) (level : Nat) : Prop :=
  ∀ t, k.tier? = some t → t < level

/-- A token that never goes on with an expression stops every level. -/
theorem stops {k : Token.Kind} (h : k.tier? = none) (level : Nat) : k.Stops level :=
  fun t ht => by rw [h] at ht; nomatch ht

/-- A pipe stops what is tighter than a filter. -/
theorem stops_pipe : Stops (.symbol .pipe) 10 := by
  intro t ht
  obtain rfl : 9 = t := by simpa [tier?] using ht
  omega

/-- A token that stops a level stops all tighter ones. -/
theorem Stops.mono {k : Token.Kind} {level place : Nat} (hk : k.Stops place) (h : place ≤ level) :
    k.Stops level :=
  fun t ht => Nat.lt_of_lt_of_le (hk t ht) h

/-- A token that stops a level is none that goes on with it. -/
theorem Stops.ne {k l : Token.Kind} {level tier : Nat} (hk : k.Stops level)
    (hl : l.tier? = some tier) (h : level ≤ tier) : k ≠ l := by
  intro heq
  rw [← heq] at hl
  exact Nat.not_lt.2 h (hk tier hl)

/-- Tokens that belong to the last token of an expression: a string to a string, and a colon to the
name of a filter. -/
def Sticks : Token.Kind → Prop
  | .string _ | .symbol .colon => True
  | _ => False

end Token.Kind

/-- **The first token** of an expression of at least a level. A `not` begins a negation. -/
def Begins (ks : List Token.Kind) (level : Nat) : Prop :=
  ∃ k l, ks = k :: l ∧
    k.type ∈ [.name, .string, .integer, .float, .symbol .lParen, .symbol .lBracket,
      .symbol .lBrace, .symbol .sub, .symbol .add] ∧
    (4 ≤ level → k ≠ .name "not")

namespace Begins

variable {ks more : List Token.Kind} {level place : Nat}

theorem append (h : Begins ks level) : Begins (ks ++ more) level := by
  obtain ⟨k, l, rfl, hk, hnot⟩ := h
  exact ⟨k, l ++ more, rfl, hk, hnot⟩

theorem mono (h : Begins ks level) (hl : place ≤ level) : Begins ks place := by
  obtain ⟨k, l, rfl, hk, hnot⟩ := h
  exact ⟨k, l, rfl, hk, fun h4 => hnot (Nat.le_trans h4 hl)⟩

theorem parens : Begins (parens ks) level :=
  ⟨.symbol .lParen, _, rfl, by simp [Token.Kind.type], fun _ => nofun⟩

/-- What begins an operand begins an expression of the level of its place. -/
theorem operand (st : Style) (place : Nat) {e : Expr} (h : Begins ks e.level) :
    Begins (st.operand place e ks) place := by
  unfold Style.operand
  split
  · exact parens
  · next hw =>
      have hl : place ≤ e.level := by simp at hw; omega
      exact h.mono hl

end Begins

theorem begins_constant (value : Constant) (level : Nat) : Begins [value.kind] level := by
  refine ⟨value.kind, [], rfl, ?_, fun _ => ?_⟩
  · rcases value with _ | (_ | _) | _ | _ | _ <;> simp [Constant.kind, Token.Kind.type]
  · rcases value with _ | (_ | _) | _ | _ | _ <;> simp [Constant.kind]

/-- **Every expression begins as one of its level.** -/
theorem Expr.Readable.begins {e : Expr} (he : Readable e) (st : Style) :
    Begins (e.written st) e.level := by
  induction he with
  | const => exact begins_constant _ _
  | name hn =>
      refine ⟨_, [], rfl, by simp [Token.Kind.type], fun _ h => hn ?_⟩
      obtain rfl := by simpa using h
      simp [reservedNames]
  | tuple => exact Begins.parens
  | list => exact ⟨.symbol .lBracket, _, rfl, by simp [Token.Kind.type], fun _ => by rintro ⟨⟩⟩
  | dict => exact ⟨.symbol .lBrace, _, rfl, by simp [Token.Kind.type], fun _ => by rintro ⟨⟩⟩
  | item =>
      rw [written_item]
      exact Begins.parens.append
  | member | call | test =>
      rw [written]
      exact Begins.parens.append
  | filter _ _ ih =>
      rw [written]
      exact (Begins.operand _ _ ih).append
  | conditional _ _ _ _ ihy =>
      rw [written]
      exact ((Begins.operand st 1 ihy).mono (Nat.zero_le 1)).append
  | or _ _ ih | and _ _ ih | binary _ _ ih =>
      rw [written]
      exact (Begins.operand _ _ ih).append
  | not => exact ⟨.name "not", _, rfl, by simp [Token.Kind.type], fun h => absurd h (by simp [level])⟩
  | neg => exact ⟨.symbol .sub, _, rfl, by simp [Token.Kind.type], fun _ => by rintro ⟨⟩⟩
  | pos => exact ⟨.symbol .add, _, rfl, by simp [Token.Kind.type], fun _ => by rintro ⟨⟩⟩
  | @concat nodes line hl _ ih =>
      obtain ⟨e, es, rfl⟩ := List.exists_cons_of_length_pos (Nat.lt_of_lt_of_le Nat.two_pos hl)
      have he := Begins.operand st 7 (ih e List.mem_cons_self)
      exact (he.mono (by simp [level])).append
  | compare _ _ _ ih =>
      rw [written]
      exact ((Begins.operand st 5 ih).mono (by simp [level])).append

end LiquidTemplate
