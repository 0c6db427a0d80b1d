import LiquidTemplate.Filter

/-!
# Ranges

A range without its end is a progression: it starts with the first bound, goes on by the step, and has
every number on the way before the other bound. The loop stops early only where the next number is out
of range, and no bound is behind that.

A range with its end is the one without it up to a stop that has been moved by one. That adds the stop
itself if the steps come to it, and nothing else. The last number of the machine cannot be moved, and so
it never belongs to a range.

* `Progression`: the numbers from a start, step by step, before a stop.
* `rangeFrom_toList`: the loop appends a progression.
* `exclusive_range`: the filter `range` without `inclusive`.
* `Progression.moved`: what a stop that has been moved by one adds.
* `inclusive_range`: the filter `range` with `inclusive`.
-/

namespace LiquidTemplate

/-! ### Progressions -/

/-- Whether `n` is before `stop` on the way of a step. -/
def IsBefore (stop step n : Int) : Prop :=
  0 < step ∧ n < stop ∨ step < 0 ∧ stop < n

/-- **Progression**: the numbers from `start` on, one step after the other, that are before `stop`. -/
def Progression (start stop step : Int) (numbers : List Int) : Prop :=
  ∃ count, numbers = (List.range count).map (fun k : Nat => start + k * step) ∧
    ∀ k : Nat, k < count ↔ IsBefore stop step (start + k * step)

section Progression

variable {start stop step : Int} {numbers : List Int}

/-- What is before the stop after some steps was there before them. -/
theorem IsBefore.of_later {n : Int} (k : Nat) (h : IsBefore stop step (n + k * step)) :
    IsBefore stop step n := by
  rcases h with ⟨hstep, hn⟩ | ⟨hstep, hn⟩
  · have hway : 0 ≤ k * step := Int.mul_nonneg (Int.natCast_nonneg k) (Int.le_of_lt hstep)
    exact .inl ⟨hstep, by omega⟩
  · have hway : k * step ≤ 0 :=
      Int.mul_nonpos_of_nonneg_of_nonpos (Int.natCast_nonneg k) (Int.le_of_lt hstep)
    exact .inr ⟨hstep, by omega⟩

theorem Progression.nil (h : ¬ IsBefore stop step start) : Progression start stop step [] :=
  ⟨0, rfl, fun k => iff_of_false (Nat.not_lt_zero k) fun hk => h hk.of_later⟩

/-- **A step** of a progression. -/
theorem Progression.cons (h : IsBefore stop step start)
    (hrest : Progression (start + step) stop step numbers) :
    Progression start stop step (start :: numbers) := by
  obtain ⟨count, rfl, hcount⟩ := hrest
  have hshift (k : Nat) : start + step + k * step = start + (k + 1 : Nat) * step := by
    rw [Int.natCast_succ, Int.add_mul, Int.one_mul]
    omega
  refine ⟨count + 1, ?_, fun k => ?_⟩
  · rw [List.range_succ_eq_map, List.map_cons, List.map_map]
    rw [List.map_congr_left fun k _ => hshift k]
    simp [Function.comp_def]
  · rcases k with _ | k
    · simpa using h
    · rw [← hshift, ← hcount, Nat.add_lt_add_iff_right]

end Progression

/-! ### Moving the stop -/

/-- **Reached**: `stop` is one of the numbers from `start` on, step by step. -/
def IsReached (start stop step : Int) : Prop :=
  ∃ k : Nat, start + k * step = stop

section Moved

variable {start stop step n : Int} {numbers more : List Int}

theorem isBefore_moved (hstep : step ≠ 0) :
    IsBefore (stop + step.sign) step n ↔ IsBefore stop step n ∨ n = stop := by
  unfold IsBefore
  rcases Int.lt_or_gt_of_ne hstep with hneg | hpos
  · rw [Int.sign_eq_neg_one_of_neg hneg]
    omega
  · rw [Int.sign_eq_one_of_pos hpos]
    omega

theorem not_isBefore_self : ¬ IsBefore stop step stop := by
  unfold IsBefore
  omega

/-- Different numbers of steps come to different numbers. -/
theorem steps_inj (hstep : step ≠ 0) {j k : Nat} (h : start + j * step = start + k * step) : j = k :=
  Int.ofNat_inj.1 (Int.eq_of_mul_eq_mul_right hstep (Int.add_left_cancel h))

/-- **A stop that has been moved by one** adds the old stop to a progression if the steps come to it. -/
theorem Progression.moved (hstep : step ≠ 0) (h : Progression start stop step numbers)
    (hmore : Progression start (stop + step.sign) step more) :
    IsReached start stop step ∧ more = numbers ++ [stop] ∨
      ¬ IsReached start stop step ∧ more = numbers := by
  obtain ⟨count, rfl, hcount⟩ := h
  obtain ⟨total, rfl, htotal⟩ := hmore
  have hmoved (k : Nat) : k < total ↔ k < count ∨ start + k * step = stop := by
    rw [htotal, isBefore_moved hstep, hcount]
  by_cases hreached : IsReached start stop step
  · obtain ⟨k, rfl⟩ := hreached
    have hk : k < total := (hmoved k).2 (.inr rfl)
    have honly {j : Nat} (hj : j < total) (hbehind : ¬ j < count) : j = k :=
      steps_inj hstep (((hmoved j).1 hj).resolve_left hbehind)
    have hend : ¬ k < count := fun hk => not_isBefore_self ((hcount k).1 hk)
    have hfirst : count = k := by
      rcases Nat.lt_or_ge count k with hlt | hge
      · exact honly (Nat.lt_trans hlt hk) (Nat.lt_irrefl count)
      · omega
    have hlast : total = k + 1 := by
      have hnone : ¬ k + 1 < total := fun hlt => by
        have := honly hlt (by omega)
        omega
      omega
    refine .inl ⟨⟨k, rfl⟩, ?_⟩
    rw [hfirst, hlast, List.range_succ, List.map_append, List.map_singleton]
  · have hsame (k : Nat) : k < total ↔ k < count := by
      rw [hmoved, or_iff_left fun heq => hreached ⟨k, heq⟩]
    have heq : total = count := by
      have hle := hsame total
      have hge := hsame count
      omega
    exact .inr ⟨hreached, by rw [heq]⟩

theorem isReached_of_le (h : start ≤ stop) : IsReached start stop 1 :=
  ⟨(stop - start).toNat, by omega⟩

/-- The number of steps of one. -/
theorem Progression.length_eq (hle : start ≤ stop) (h : Progression start stop 1 numbers) :
    (numbers.length : Int) = stop - start := by
  obtain ⟨count, rfl, hcount⟩ := h
  have hone (k : Nat) : k < count ↔ (k : Int) < stop - start := by
    rw [hcount, IsBefore]
    omega
  have hlast := hone count
  have hall := hone (stop - start).toNat
  rw [List.length_map, List.length_range]
  omega

end Moved

/-! ### The loop -/

section Loop

variable {stop step n : Int64}

theorem isBeforeStop_iff : isBeforeStop stop step n = true ↔ IsBefore stop.toInt step.toInt n.toInt := by
  simp [isBeforeStop, IsBefore, Int64.lt_iff_toInt_lt]

/-- No stop is behind a number that is out of range. -/
theorem not_isBefore_of_checkedAdd (h : Number.checkedAdd n step = none) :
    ¬ IsBefore stop.toInt step.toInt (n.toInt + step.toInt) := by
  have hout := Number.word?_eq_none_iff.1 h
  have hn := n.le_toInt
  have hn' := n.toInt_lt
  have hstop := stop.le_toInt
  have hstop' := stop.toInt_lt
  unfold IsBefore
  omega

/-- **The range loop** puts a progression behind the numbers so far. -/
theorem rangeFrom_toList (stop step : Int64) (numbers : Array Value) (n : Int64) :
    ∃ words : List Int64, (rangeFrom stop step numbers n).toList = numbers.toList ++ words.map .int ∧
      Progression n.toInt stop.toInt step.toInt (words.map Int64.toInt) := by
  induction numbers, n using rangeFrom.induct stop step with
  | case1 numbers n hbefore next hnext ih =>
    obtain ⟨words, hlist, hwords⟩ := ih
    have hvalue : next.toInt = n.toInt + step.toInt := Number.word?_eq_some_iff.1 hnext
    refine ⟨n :: words, ?_, .cons (isBeforeStop_iff.1 hbefore) (hvalue ▸ hwords)⟩
    rw [rangeFrom, dif_pos hbefore]
    split
    · next _ hnext' =>
      cases hnext.symm.trans hnext'
      rw [hlist, Array.toList_push, List.append_assoc]
      rfl
    · next hnone => cases hnext.symm.trans hnone
  | case2 numbers n hbefore hnone =>
    refine ⟨[n], ?_, .cons (isBeforeStop_iff.1 hbefore) (.nil (not_isBefore_of_checkedAdd hnone))⟩
    rw [rangeFrom, dif_pos hbefore]
    split
    · next _ hnext => cases hnone.symm.trans hnext
    · rw [Array.toList_push]
      rfl
  | case3 numbers n hbefore =>
    refine ⟨[], ?_, .nil fun h => hbefore (isBeforeStop_iff.2 h)⟩
    rw [rangeFrom, dif_neg hbefore]
    exact (List.append_nil _).symm

/-- No word is behind `stop` on the way of a step. -/
def IsLastWord (stop step : Int64) : Prop :=
  0 < step ∧ stop = Int64.maxValue ∨ step < 0 ∧ stop = Int64.minValue

instance (stop step : Int64) : Decidable (IsLastWord stop step) :=
  inferInstanceAs (Decidable (_ ∨ _))

theorem not_isLastWord_one (h : stop ≠ Int64.maxValue) : ¬ IsLastWord stop 1 := by
  rintro (⟨-, hlast⟩ | ⟨hneg, -⟩)
  · exact h hlast
  · exact absurd hneg (by decide)

theorem clamp_of_isLastWord (h : IsLastWord stop step) :
    Number.clamp (stop.toInt + step.toInt.sign) = stop := by
  refine Int64.toInt_inj.1 ?_
  rw [Number.toInt_clamp]
  simp only [IsLastWord, Int64.lt_iff_toInt_lt, Int64.toInt_zero] at h
  rcases h with ⟨hstep, rfl⟩ | ⟨hstep, rfl⟩
  · rw [Int.sign_eq_one_of_pos hstep, Int64.toInt_maxValue]
    omega
  · rw [Int.sign_eq_neg_one_of_neg hstep, Int64.toInt_minValue]
    omega

theorem toInt_clamp_of_not_isLastWord (hstep : step ≠ 0) (h : ¬ IsLastWord stop step) :
    (Number.clamp (stop.toInt + step.toInt.sign)).toInt = stop.toInt + step.toInt.sign := by
  have hlo := stop.le_toInt
  have hhi := stop.toInt_lt
  simp only [IsLastWord, Int64.lt_iff_toInt_lt, Int64.toInt_zero, ← Int64.toInt_inj,
    Int64.toInt_maxValue, Int64.toInt_minValue] at h
  rw [Number.toInt_clamp]
  rcases Int.lt_or_gt_of_ne (Number.toInt_ne_zero hstep) with hneg | hpos
  · rw [Int.sign_eq_neg_one_of_neg hneg]
    omega
  · rw [Int.sign_eq_one_of_pos hpos]
    omega

/-- **The loop up to a stop that has been moved**: it also has the old stop, if the steps come to it and
it could be moved. -/
theorem rangeFrom_moved (start stop : Int64) (hstep : step ≠ 0) :
    ∃ numbers last : List Int64,
      (rangeFrom stop step #[] start).toList = numbers.map .int ∧
      Progression start.toInt stop.toInt step.toInt (numbers.map Int64.toInt) ∧
      (rangeFrom (Number.clamp (stop.toInt + step.toInt.sign)) step #[] start).toList =
        (numbers ++ last).map .int ∧
      (last = [stop] ∨ last = []) ∧
      (last = [stop] ↔ IsReached start.toInt stop.toInt step.toInt ∧ ¬ IsLastWord stop step) := by
  obtain ⟨numbers, hnumbers, hprogression⟩ := rangeFrom_toList stop step #[] start
  by_cases hlast : IsLastWord stop step
  · refine ⟨numbers, [], hnumbers, hprogression, ?_, .inr rfl, iff_of_false nofun fun h => h.2 hlast⟩
    rw [clamp_of_isLastWord hlast, List.append_nil]
    exact hnumbers
  · obtain ⟨more, hmore, hmoved⟩ := rangeFrom_toList
      (Number.clamp (stop.toInt + step.toInt.sign)) step #[] start
    rw [toInt_clamp_of_not_isLastWord hstep hlast] at hmoved
    have hinj {xs ys : List Int64} (h : xs.map Int64.toInt = ys.map Int64.toInt) : xs = ys :=
      (List.map_inj_right fun _ _ => Int64.toInt_inj.1).1 h
    rcases hprogression.moved (Number.toInt_ne_zero hstep) hmoved with
      ⟨hreached, hlist⟩ | ⟨hreached, hlist⟩
    · refine ⟨numbers, [stop], hnumbers, hprogression, ?_, .inl rfl, iff_of_true rfl ⟨hreached, hlast⟩⟩
      have hends : more = numbers ++ [stop] := hinj (by rw [hlist, List.map_append]; rfl)
      rw [hmore, hends]
      rfl
    · refine ⟨numbers, [], hnumbers, hprogression, ?_, .inr rfl,
        iff_of_false nofun fun h => hreached h.1⟩
      rw [hmore, hinj hlist, List.append_nil]
      rfl

end Loop

/-! ### The filter -/

namespace Filter

variable {host : Host} {history : History} {args : FilterArguments}

theorem apply_range {inclusive : Bool} (value : Value)
    (h : (args.get? 0 "inclusive").any Value.isTruthy = inclusive) :
    range.apply host history value args =
      (rangeOf (boundsOf value) inclusive).map fun result => (result, history) := by
  rw [apply_of_ne_map (by decide), evaluate, h]

theorem rangeOf_words (start stop : Int64) {step : Int64} (h : step ≠ 0) :
    rangeOf [.int start, .int stop, .int step] false =
      .ok (.list (rangeFrom stop step #[] start).toList) :=
  if_neg fun hstep => h (beq_iff_eq.1 hstep)

theorem rangeOf_moved (start stop : Int64) {step : Int64} (h : step ≠ 0) :
    rangeOf [.int start, .int stop, .int step] true =
      .ok (.list (rangeFrom (Number.clamp (stop.toInt + step.toInt.sign)) step #[] start).toList) :=
  if_neg fun hstep => h (beq_iff_eq.1 hstep)

theorem rangeBounds_of_length {bounds : List Value} (h : bounds.length = 0 ∨ 3 < bounds.length) :
    rangeBounds bounds = .error (.typeMismatch "one to three range bounds") := by
  match bounds with
  | [] => rfl
  | [_] | [_, _] | [_, _, _] => simp at h
  | _ :: _ :: _ :: _ :: _ => rfl

end Filter

/-- **A range without its end** is the progression of its bounds. The step is one unless it is given,
and a single bound is the stop of a range that starts at zero. A step of zero fails, and so does any
other number of bounds. -/
theorem exclusive_range (host : Host) (history : History) (args : FilterArguments)
    (h : (args.get? 0 "inclusive").any Value.isTruthy = false) :
    let run (value : Value) := Filter.range.apply host history value args
    (∀ start stop step : Int64, step ≠ 0 →
      ∃ numbers : List Int64,
        run (.list [.int start, .int stop, .int step]) = .ok (.list (numbers.map .int), history) ∧
        Progression start.toInt stop.toInt step.toInt (numbers.map Int64.toInt)) ∧
    (∀ start stop : Value, run (.list [start, stop]) = run (.list [start, stop, .int 1])) ∧
    (∀ stop : Value, run (.list [stop]) = run (.list [.int 0, stop, .int 1])) ∧
    (∀ value : Value, (∀ items, value ≠ .list items) → run value = run (.list [value])) ∧
    (∀ start stop : Int64,
      run (.list [.int start, .int stop, .int 0]) = .error (.typeMismatch "non-zero range step")) ∧
    (∀ bounds : List Value, bounds.length = 0 ∨ 3 < bounds.length →
      run (.list bounds) = .error (.typeMismatch "one to three range bounds")) := by
  intro run
  have hrun (value : Value) : run value = _ := Filter.apply_range value h
  refine ⟨fun start stop step hstep => ?_, fun start stop => ?_, fun stop => ?_, fun value hlist => ?_,
    fun start stop => ?_, fun bounds hlength => ?_⟩
  · obtain ⟨numbers, hnumbers, hprogression⟩ := rangeFrom_toList stop step #[] start
    refine ⟨numbers, ?_, hprogression⟩
    rw [hrun, Filter.boundsOf, Filter.rangeOf_words start stop hstep, hnumbers]
    rfl
  · rw [hrun, hrun]
    rfl
  · rw [hrun, hrun]
    rfl
  · have hbounds : Filter.boundsOf value = [value] := by
      cases value with
      | list items => exact absurd rfl (hlist items)
      | _ => rfl
    rw [hrun, hrun, hbounds]
    rfl
  · rw [hrun]
    rfl
  · rw [hrun, Filter.boundsOf, rangeOf, Filter.rangeBounds_of_length hlength]
    rfl

/-- A range that ends because the next number is out of range. -/
theorem exclusive_range_at_the_limit :
    let host : Host := fun _ => ⟨fun _ _ => none, fun _ _ => none, fun _ => ""⟩
    let start : Int64 := 9223372036854775804
    (({} : FilterArguments).get? 0 "inclusive").any Value.isTruthy = false ∧
      ∃ numbers : List Int64,
        Filter.range.apply host [] (.list [.int start, .int Int64.maxValue, .int 2]) {} =
          .ok (.list (numbers.map .int), []) ∧
        numbers.map Int64.toInt = [9223372036854775804, 9223372036854775806] := by
  intro host start
  obtain ⟨numbers, hrun, count, hnumbers, hcount⟩ :=
    (exclusive_range host [] {} rfl).1 start Int64.maxValue 2 (by decide)
  have hlast := (hcount 1).2 (.inl (by decide))
  have hnext : ¬ 2 < count := fun hlt => by
    have := (hcount 2).1 hlt
    revert this
    simp [IsBefore, start]
    decide
  obtain rfl : count = 2 := by omega
  exact ⟨rfl, numbers, hrun, hnumbers⟩

/-- **A range with its end** is the range without it, and then the stop if the steps come to it. The last
word in the direction of the steps is left out nevertheless. Steps of one from `first` up to any other
`last` give all numbers between them. -/
theorem inclusive_range (host : Host) (history : History) (args without : FilterArguments)
    (h : (args.get? 0 "inclusive").any Value.isTruthy = true)
    (hwithout : (without.get? 0 "inclusive").any Value.isTruthy = false) :
    let run (args : FilterArguments) (bounds : List Int64) :=
      Filter.range.apply host history (.list (bounds.map .int)) args
    (∀ start stop step : Int64, step ≠ 0 →
      ∃ numbers last : List Int64,
        run without [start, stop, step] = .ok (.list (numbers.map .int), history) ∧
        Progression start.toInt stop.toInt step.toInt (numbers.map Int64.toInt) ∧
        run args [start, stop, step] = .ok (.list ((numbers ++ last).map .int), history) ∧
        (last = [stop] ∨ last = []) ∧
        (last = [stop] ↔ IsReached start.toInt stop.toInt step.toInt ∧ ¬ IsLastWord stop step)) ∧
    (∀ first last : Int64, first ≤ last → last ≠ Int64.maxValue →
      ∃ numbers : List Int64,
        run args [first, last] = .ok (.list ((numbers ++ [last]).map .int), history) ∧
        ((numbers ++ [last]).length : Int) = last.toInt - first.toInt + 1) := by
  intro run
  have hrun (bounds : List Int64) : run args bounds = _ := Filter.apply_range _ h
  have hmore (start stop : Int64) {step : Int64} (hstep : step ≠ 0) :
      run args [start, stop, step] = _ :=
    (hrun _).trans (congrArg _ (Filter.rangeOf_moved start stop hstep))
  refine ⟨fun start stop step hstep => ?_, fun first last hle hmax => ?_⟩
  · obtain ⟨numbers, last, hnumbers, hprogression, hmoved, hends, hlast⟩ :=
      rangeFrom_moved start stop hstep
    refine ⟨numbers, last, ?_, hprogression, ?_, hends, hlast⟩
    · have hplain : run without [start, stop, step] = _ :=
        (Filter.apply_range _ hwithout).trans (congrArg _ (Filter.rangeOf_words start stop hstep))
      rw [hplain, hnumbers]
      rfl
    · rw [hmore start stop hstep, hmoved]
      rfl
  · have hone : (1 : Int64) ≠ 0 := by decide
    have hvalue := Int64.le_iff_toInt_le.1 hle
    obtain ⟨numbers, ends, -, hprogression, hmoved, -, hlast⟩ := rangeFrom_moved first last hone
    obtain rfl := hlast.2 ⟨isReached_of_le hvalue, not_isLastWord_one hmax⟩
    refine ⟨numbers, ?_, ?_⟩
    · have hstep : run args [first, last] = run args [first, last, 1] := by
        rw [hrun, hrun]
        rfl
      rw [hstep, hmore first last hone, hmoved]
      rfl
    · have hcount := hprogression.length_eq hvalue
      rw [List.length_map] at hcount
      rw [List.length_append, Int.natCast_add, hcount]
      rfl

example :
    let host : Host := fun _ => ⟨fun _ _ => none, fun _ _ => none, fun _ => ""⟩
    let args : FilterArguments := { named := [("inclusive", .bool true)] }
    Filter.range.apply host [] (.list [.int 9223372036854775806, .int Int64.maxValue]) args =
      .ok (.list [.int 9223372036854775806], []) := by
  cbv

/-- A range that comes down to its end, and one with steps of one. -/
theorem inclusive_range_downwards :
    let host : Host := fun _ => ⟨fun _ _ => none, fun _ _ => none, fun _ => ""⟩
    let args : FilterArguments := { named := [("inclusive", .bool true)] }
    (args.get? 0 "inclusive").any Value.isTruthy = true ∧
      (({} : FilterArguments).get? 0 "inclusive").any Value.isTruthy = false ∧
      ∃ numbers : List Int64,
        Filter.range.apply host [] (.list [.int 5, .int (-1), .int (-3)]) args =
          .ok (.list ((numbers ++ [-1]).map .int), []) ∧
        numbers.map Int64.toInt = [5, 2] ∧
      ∃ others : List Int64,
        Filter.range.apply host [] (.list [.int (-1), .int 1]) args =
          .ok (.list ((others ++ [1]).map .int), []) ∧
        ((others ++ [1]).length : Int) = 3 := by
  intro host args
  have hranges := inclusive_range host [] args {} rfl rfl
  obtain ⟨numbers, last, -, ⟨count, hnumbers, hcount⟩, hrun, -, hlast⟩ :=
    hranges.1 5 (-1) (-3) (by decide)
  have hreached : IsReached (5 : Int64).toInt (-1 : Int64).toInt (-3 : Int64).toInt := ⟨2, by decide⟩
  obtain rfl := hlast.2 ⟨hreached, by decide⟩
  have hsecond : 1 < count := (hcount 1).2 (.inr (by decide))
  have hthird : ¬ 2 < count := fun hlt => not_isBefore_self ((hcount 2).1 hlt)
  obtain rfl : count = 2 := by omega
  exact ⟨rfl, rfl, numbers, hrun, hnumbers, hranges.2 (-1) 1 (by decide) (by decide)⟩

end LiquidTemplate
