import LiquidTemplate.Proofs.Filters.Truncating
import LiquidTemplate.Proofs.Scanning.Printed

/-!
# Numbers as texts

A filter takes its numbers from three readers of values: a number of either kind, a whole number, and a
whole number with zero for what is none. All of them read the numeral of a whole number, with blanks
around it, as that number. So it makes no difference which of the two a filter is given.

* `Number.readWord?_intText`: a numeral is read as its number, in the whole range.
* `Value.Respells`, `FilterArguments.Respells`: numerals in place of whole numbers.
* `Value.Respells.toQuantity`: a respelled value is read as the same number.
* `numerals`: the filters that compute.
-/

namespace LiquidTemplate

/-! ### Numerals -/

theorem Number.readWord?_intText (n : Int64) : readWord? (intText n.toInt) = some n := by
  rw [intText]
  split
  · next hneg =>
    have hvalue : -(n.toInt.natAbs : Int) = n.toInt := by omega
    rw [readWord?, readSign]
    dsimp only
    rw [Lexeme.readDigits?_natText, Option.bind_some, if_pos rfl, hvalue, word?_toInt]
  · next hnonneg =>
    have hvalue : (n.toInt.natAbs : Int) = n.toInt := by omega
    rw [readWord?, Lexeme.readSign_natText]
    dsimp only
    rw [Lexeme.readDigits?_natText, Option.bind_some, if_neg Bool.false_ne_true, hvalue, word?_toInt]

namespace Text

variable {before behind w : List Char}

theorem dropWhile_isBlank (hbefore : ∀ c ∈ before, isBlank c = true) (hw : IsWord w)
    (rest : List Char) : (before ++ (w ++ rest)).dropWhile isBlank = w ++ rest := by
  obtain ⟨c, more, rfl⟩ := List.exists_cons_of_ne_nil hw.1
  have hc : ¬ isBlank c = true := Bool.eq_false_iff.1 (hw.2 c List.mem_cons_self)
  rw [List.dropWhile_append_of_pos hbefore, List.cons_append, List.dropWhile_cons_of_neg hc]

theorem IsWord.reverse (hw : IsWord w) : IsWord w.reverse :=
  ⟨by simpa using hw.1, fun c hc => hw.2 c (List.mem_reverse.1 hc)⟩

/-- **Blanks around a word** are trimmed. -/
theorem trim_of_isWord (hbefore : ∀ c ∈ before, isBlank c = true)
    (hbehind : ∀ c ∈ behind, isBlank c = true) (hw : IsWord w) :
    trim (before ++ w ++ behind) = w := by
  have hreverse : ∀ c ∈ behind.reverse, isBlank c = true := fun c hc =>
    hbehind c (List.mem_reverse.1 hc)
  have hend := dropWhile_isBlank hreverse hw.reverse []
  rw [List.append_nil, ← List.reverse_append] at hend
  rw [trim, trimStart, List.append_assoc, dropWhile_isBlank hbefore hw, trimEnd, hend,
    List.reverse_reverse]

theorem isWord_intText (n : Int) : IsWord (Number.intText n) := by
  have hdigits (k : Nat) : IsWord (Number.natText k) := by
    refine ⟨Nat.toDigits_ne_nil, fun c hc => Bool.eq_false_iff.2 fun hblank => ?_⟩
    have hrange := toNat_of_isAsciiDigit (Lexeme.digits_natText k c hc)
    simp only [isBlank, Bool.or_eq_true, Bool.and_eq_true, decide_eq_true_eq, beq_iff_eq] at hblank
    omega
  rw [Number.intText]
  split
  · exact ⟨List.cons_ne_nil _ _, List.forall_mem_cons.2 ⟨by decide, (hdigits _).2⟩⟩
  · exact hdigits _

end Text

/-! ### Respelled values -/

namespace Value

variable {v w : Value}

/-- **Respelled value**: the value itself, or where that is a whole number its numeral with blanks around
it. -/
inductive Respells : Value → Value → Prop where
  | refl (v : Value) : Respells v v
  | numeral (n : Int64) {before behind : List Char} (hbefore : ∀ c ∈ before, Text.isBlank c = true)
      (hbehind : ∀ c ∈ behind, Text.isBlank c = true) :
      Respells (int n) (ofChars (before ++ Number.intText n.toInt ++ behind))

/-- **A respelled value is read as the same number.** -/
theorem Respells.toQuantity (h : v.Respells w) : w.toQuantity = v.toQuantity := by
  cases h with
  | refl => rfl
  | @numeral n before behind hbefore hbehind =>
    have hread : Quantity.ofText? (String.ofList (before ++ Number.intText n.toInt ++ behind)) =
        some (.int n) := by
      rw [Quantity.ofText?, String.toList_ofList,
        Text.trim_of_isWord hbefore hbehind (Text.isWord_intText n.toInt), Number.readWord?_intText]
      rfl
    simp only [ofChars, Value.toQuantity, hread]

theorem Respells.toIndex (h : v.Respells w) : w.toIndex = v.toIndex := by
  rw [Value.toIndex, Value.toIndex, h.toQuantity]

theorem toInteger_str (s : String) :
    (str s).toInteger =
      match (str s).toQuantity with
      | .ok q => .ok q.toWord
      | .error _ => .ok 0 := rfl

theorem Respells.toInteger (h : v.Respells w) : w.toInteger = v.toInteger := by
  cases h with
  | refl => rfl
  | numeral n hbefore hbehind =>
    have hread := (Respells.numeral n hbefore hbehind).toQuantity
    rw [ofChars] at hread ⊢
    rw [toInteger_str, hread]
    rfl

/-- **Lenient reading** gives what strict reading gives, where that succeeds. -/
theorem toInteger_of_toIndex {n : Int64} (h : v.toIndex = .ok n) : v.toInteger = .ok n := by
  cases v with
  | undefined | none | list _ | map _ | object _ => cases h
  | bool _ | int _ | float _ => exact h
  | str s =>
    rw [toIndex] at h
    rw [toInteger_str]
    cases hread : (str s).toQuantity with
    | error _ =>
      rw [hread] at h
      cases h
    | ok q =>
      rw [hread] at h
      exact h

/-- **Bounds of a range** that are respelled are read as the same words. -/
theorem rangeBounds_of_respells {vs ws : List Value} (h : List.Forall₂ Respells vs ws) :
    rangeBounds ws = rangeBounds vs := by
  match h with
  | .nil => rfl
  | .cons h .nil => rw [rangeBounds, rangeBounds, h.toInteger]
  | .cons h (.cons h' .nil) => rw [rangeBounds, rangeBounds, h.toInteger, h'.toInteger]
  | .cons h (.cons h' (.cons h'' .nil)) =>
    rw [rangeBounds, rangeBounds, h.toInteger, h'.toInteger, h''.toInteger]
  | .cons _ (.cons _ (.cons _ (.cons _ _))) => rfl

end Value

/-! ### Respelled arguments -/

/-- **Respelled arguments**: each of them is, at its place or with its name. -/
structure FilterArguments.Respells (args args' : FilterArguments) : Prop where
  positional : List.Forall₂ Value.Respells args.positional args'.positional
  named : List.Forall₂ (fun e e' => e.1 = e'.1 ∧ e.2.Respells e'.2) args.named args'.named

section Arguments

variable {args args' : FilterArguments}

theorem rel_getElem? {vs ws : List Value} (h : List.Forall₂ Value.Respells vs ws) (i : Nat) :
    Option.Rel Value.Respells vs[i]? ws[i]? := by
  induction h generalizing i with
  | nil => exact .none
  | cons hv _ ih =>
    cases i with
    | zero => exact .some hv
    | succ i => exact ih i

theorem rel_lookup {es es' : List (String × Value)} (name : String)
    (h : List.Forall₂ (fun e e' => e.1 = e'.1 ∧ e.2.Respells e'.2) es es') :
    Option.Rel Value.Respells (es.lookup name) (es'.lookup name) := by
  induction h with
  | nil => exact .none
  | @cons e e' es es' he _ ih =>
    rw [List.lookup_cons, List.lookup_cons, he.1]
    cases name == e'.1 with
    | true => exact .some he.2
    | false => exact ih

/-- **An argument** is respelled wherever it is looked for. -/
theorem FilterArguments.Respells.get? (h : args.Respells args') (index : Nat) (name : String) :
    Option.Rel Value.Respells (args.get? index name) (args'.get? index name) := by
  have hpositional := rel_getElem? h.positional index
  have hnamed := rel_lookup name h.named
  rw [FilterArguments.get?, FilterArguments.get?]
  generalize args.positional[index]? = a, args'.positional[index]? = a' at hpositional ⊢
  cases hpositional with
  | none => exact hnamed
  | some hv => exact .some hv

/-- What is done with an argument that has to be there depends on its number only. -/
theorem FilterArguments.Respells.required_bind {α : Type} (h : args.Respells args')
    {f g : Value → Except FilterError α} (hfg : ∀ {a b : Value}, a.Respells b → g b = f a)
    (filter : String) (index : Nat) (name : String) :
    (args'.required filter index name).bind g = (args.required filter index name).bind f := by
  have hrel := h.get? index name
  rw [FilterArguments.required, FilterArguments.required]
  generalize args.get? index name = a, args'.get? index name = a' at hrel ⊢
  cases hrel with
  | none => rfl
  | some hv => exact hfg hv

theorem FilterArguments.Respells.indexOr (h : args.Respells args') (index : Nat) (name : String)
    (default : Int64) :
    Filter.indexOr (args'.get? index name) default = Filter.indexOr (args.get? index name) default := by
  have hrel := h.get? index name
  generalize args.get? index name = a, args'.get? index name = a' at hrel ⊢
  cases hrel with
  | none => rfl
  | some hv => exact hv.toIndex

end Arguments

/-! ### The filters -/

namespace Filter

variable {f : Filter} {objects : Objects} {v w a b : Value} {args args' : FilterArguments}

theorem onQuantity_of_respells (hv : v.Respells w) (f : Quantity → Quantity) :
    onQuantity w f = onQuantity v f := by
  rw [onQuantity, onQuantity, hv.toQuantity]

theorem onQuantities_of_respells (hv : v.Respells w) (ha : a.Respells b)
    (f : Quantity → Quantity → Quantity) : onQuantities w b f = onQuantities v a f := by
  rw [onQuantities, onQuantities, hv.toQuantity, ha.toQuantity]

theorem onDivision_of_respells (hv : v.Respells w) (ha : a.Respells b)
    (f : Quantity → Quantity → Option Quantity) : onDivision w b f = onDivision v a f := by
  rw [onDivision, onDivision, hv.toQuantity, ha.toQuantity]

theorem quantityOrZero_of_respells (hv : v.Respells w) : quantityOrZero w = quantityOrZero v := by
  rw [quantityOrZero, quantityOrZero, hv.toQuantity]

/-- **Filters that compute** with numbers. -/
def computing : List Filter :=
  [abs, ceil, floor, round, plus, minus, times, dividedBy, modulo]

/-- **Computing** depends on the numbers of the value and of the arguments only. -/
theorem evaluate_of_mem_computing (hf : f ∈ computing) (hv : v.Respells w)
    (hargs : args.Respells args') : f.evaluate objects w args' = f.evaluate objects v args := by
  have hsum {f : String} (op : Quantity → Quantity → Quantity) :=
    hargs.required_bind (fun ha => onQuantities_of_respells hv ha op) f 0 "operand"
  have hdivision {f : String} (op : Quantity → Quantity → Option Quantity) :=
    hargs.required_bind (fun ha => onDivision_of_respells hv ha op) f 0
  simp only [computing, List.mem_cons, List.not_mem_nil, or_false] at hf
  rcases hf with rfl | rfl | rfl | rfl | rfl | rfl | rfl | rfl | rfl
  case _ => exact onQuantity_of_respells hv _
  case _ => exact onQuantity_of_respells hv _
  case _ => exact onQuantity_of_respells hv _
  case _ =>
    simp only [evaluate, hargs.indexOr, onQuantity_of_respells hv]
  case _ => exact hsum Quantity.plus
  case _ => exact hsum Quantity.minus
  case _ =>
    refine hargs.required_bind (fun ha => ?_) _ 0 "operand"
    rw [quantityOrZero_of_respells hv, quantityOrZero_of_respells ha]
  case _ => exact hdivision Quantity.divide? "divisor"
  case _ => exact hdivision Quantity.modulo? "modulus"

theorem evaluate_slice_of_respells (hargs : args.Respells args') (v : Value) :
    slice.evaluate objects v args' = slice.evaluate objects v args := by
  refine hargs.required_bind (fun ha => ?_) _ 0 "offset"
  rw [ha.toIndex, hargs.indexOr]

theorem charsOr_of_get? {index : Nat} {name : String} (h : args'.get? index name = args.get? index name)
    (default : String) :
    args'.charsOr objects index name default = args.charsOr objects index name default := by
  rw [FilterArguments.charsOr, FilterArguments.charsOr, h]

theorem evaluate_truncate_of_respells (hargs : args.Respells args')
    (hend : args'.get? 1 "end" = args.get? 1 "end") (v : Value) :
    truncate.evaluate objects v args' = truncate.evaluate objects v args := by
  simp only [evaluate, hargs.indexOr, charsOr_of_get? hend]

theorem evaluate_truncateWords_of_respells (hargs : args.Respells args')
    (hend : args'.get? 1 "end" = args.get? 1 "end") (v : Value) :
    truncateWords.evaluate objects v args' = truncateWords.evaluate objects v args := by
  simp only [evaluate, hargs.indexOr, charsOr_of_get? hend]

theorem boundsOf_of_respells (hv : v.Respells w) :
    List.Forall₂ Value.Respells (boundsOf v) (boundsOf w) := by
  cases hv with
  | refl => exact List.forall₂_same.2 fun a _ => .refl a
  | numeral n hbefore hbehind => exact .cons (.numeral n hbefore hbehind) .nil

theorem evaluate_range_of_respells (h : List.Forall₂ Value.Respells (boundsOf v) (boundsOf w))
    (args : FilterArguments) : range.evaluate objects w args = range.evaluate objects v args := by
  rw [evaluate, evaluate, rangeOf, rangeOf, Value.rangeBounds_of_respells h]

end Filter

/-- **Numerals** of whole numbers, with blanks around them, do what the numbers do: as the value and as
the arguments of the filters that compute, as offset, length, leeway and number of words, and as the
bounds of a range. A value that is read as a whole number strictly is read so leniently too. -/
theorem numerals (host : Host) (history : History) :
    let run (f : Filter) (value : Value) (args : FilterArguments) := f.run host history value args
    (∀ f ∈ Filter.computing, ∀ (v w : Value) (args args' : FilterArguments), v.Respells w →
      args.Respells args' → run f w args' = run f v args) ∧
    (∀ (v : Value) (args args' : FilterArguments), args.Respells args' →
      run .slice v args' = run .slice v args ∧
      (args'.get? 1 "end" = args.get? 1 "end" →
        run .truncate v args' = run .truncate v args ∧
        run .truncateWords v args' = run .truncateWords v args)) ∧
    (∀ (v w : Value) (args : FilterArguments), v.Respells w → run .range w args = run .range v args) ∧
    (∀ (vs ws : List Value) (args : FilterArguments), List.Forall₂ Value.Respells vs ws →
      run .range (.list ws) args = run .range (.list vs) args) ∧
    ∀ (v : Value) (n : Int64), v.toIndex = .ok n → v.toInteger = .ok n := by
  intro run
  have hrun {f : Filter} {v w : Value} {args args' : FilterArguments} (hf : f ≠ .map)
      (h : f.evaluate (host history) w args' = f.evaluate (host history) v args) :
      run f w args' = run f v args := by
    unfold run
    rw [Filter.run_of_ne_map hf, Filter.run_of_ne_map hf, h]
  refine ⟨fun f hf v w args args' hv hargs => ?_, fun v args args' hargs => ⟨?_, fun hend => ⟨?_, ?_⟩⟩,
    fun v w args hv => ?_, fun vs ws args h => ?_, fun v n => Value.toInteger_of_toIndex⟩
  · refine hrun ?_ (Filter.evaluate_of_mem_computing hf hv hargs)
    rintro rfl
    exact absurd hf (by decide)
  · exact hrun (by decide) (Filter.evaluate_slice_of_respells hargs v)
  · exact hrun (by decide) (Filter.evaluate_truncate_of_respells hargs hend v)
  · exact hrun (by decide) (Filter.evaluate_truncateWords_of_respells hargs hend v)
  · exact hrun (by decide) (Filter.evaluate_range_of_respells (Filter.boundsOf_of_respells hv) args)
  · exact hrun (by decide) (Filter.evaluate_range_of_respells (v := .list vs) (w := .list ws) h args)

/-- The least whole number and a blank of two bytes, as a summand and as bounds of a range. -/
theorem numerals_least :
    let host : Host := fun _ => ⟨fun _ _ => none, fun _ _ => none, fun _ => ""⟩
    let least : Value := .int Int64.minValue
    let text : Value := .str "\t-9223372036854775808\u00a0"
    let args : FilterArguments := { positional := [.int 2], named := [("end", .int 2)] }
    let args' : FilterArguments := { positional := [.str "2 "], named := [("end", .int 2)] }
    Filter.plus ∈ Filter.computing ∧ least.Respells text ∧ args.Respells args' ∧
      args'.get? 1 "end" = args.get? 1 "end" ∧
      List.Forall₂ Value.Respells [least, least] [text, text] ∧ text.toIndex = .ok Int64.minValue ∧
      Filter.plus.run host [] text args' = (.ok (.int (Int64.minValue + 2)), []) ∧
      Filter.slice.run host [] (.str "abc") args' = Filter.slice.run host [] (.str "abc") args ∧
      Filter.truncate.run host [] (.str "abc") args' = Filter.truncate.run host [] (.str "abc") args ∧
      Filter.range.run host [] text {} = Filter.range.run host [] least {} ∧
      Filter.range.run host [] (.list [text, text]) {} =
        Filter.range.run host [] (.list [least, least]) {} ∧
      text.toInteger = .ok Int64.minValue := by
  intro host least text args args'
  have hleast : least.Respells text := by
    have htext : text = .ofChars (['\t'] ++ Number.intText Int64.minValue.toInt ++ ['\u00a0']) :=
      congrArg Value.str (by decide)
    rw [htext]
    exact .numeral _ (List.all_eq_true.1 rfl) (List.all_eq_true.1 rfl)
  have hargs : args.Respells args' := by
    have htwo : Value.str "2 " = .ofChars ([] ++ Number.intText (2 : Int64).toInt ++ [' ']) :=
      congrArg Value.str (by decide)
    refine ⟨.cons ?_ .nil, .cons ⟨rfl, .refl _⟩ .nil⟩
    rw [htwo]
    exact .numeral _ (List.forall_mem_nil _) (List.all_eq_true.1 rfl)
  have hbounds : List.Forall₂ Value.Respells [least, least] [text, text] :=
    .cons hleast (.cons hleast .nil)
  have hindex : text.toIndex = .ok Int64.minValue := hleast.toIndex
  obtain ⟨hcompute, hcut, hrange, hranges, hread⟩ := numerals host []
  refine ⟨by decide, hleast, hargs, rfl, hbounds, hindex, ?_, (hcut _ _ _ hargs).1,
    ((hcut _ _ _ hargs).2 rfl).1, hrange _ _ _ hleast, hranges _ _ _ hbounds, hread _ _ hindex⟩
  exact (hcompute .plus (by decide) _ _ _ _ hleast hargs).trans rfl

end LiquidTemplate
