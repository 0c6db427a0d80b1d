import LiquidTemplate.Filter

/-!
# Slices

The bounds of a slice are computed with words of the machine. The number of elements of what is in
memory is a word. So the sum of it and a negative offset does not wrap around, a sum that saturates is
behind the last element anyway, and the two bounds are places in the list and in order.

* `IsSlice`: the elements that belong to a slice.
* `window?_eq`: the bounds, computed without the machine.
* `isSlice_sliceList`: a slice has its elements.
* `exact_slices`: the filter `slice`.
-/

namespace LiquidTemplate

section Slices

variable {α β : Type} {xs : List α} {size : Nat}

/-! ### Elements of a slice -/

/-- **The elements from `start` up to `stop`** of a list. -/
def IsPart (start stop : Int) (xs part : List α) : Prop :=
  ∃ before behind, xs = before ++ part ++ behind ∧
    (before.length : Int) = start ∧ (before ++ part).length = stop

theorem isPart_drop_take {start stop : Nat} (hle : start ≤ stop) (hstop : stop ≤ xs.length) :
    IsPart start stop xs ((xs.take stop).drop start) := by
  have hbefore : (xs.take stop).take start = xs.take start := by
    rw [List.take_take, Nat.min_eq_left hle]
  have htake : xs.take start ++ (xs.take stop).drop start = xs.take stop := by
    rw [← hbefore, List.take_append_drop]
  refine ⟨xs.take start, xs.drop stop, ?_, ?_, ?_⟩
  · rw [htake, List.take_append_drop]
  · rw [List.length_take_of_le (Nat.le_trans hle hstop)]
  · rw [htake, List.length_take_of_le hstop]

/-- The place at which a slice of `size` elements begins. -/
def sliceStart (size offset : Int) : Int :=
  if 0 ≤ offset then offset else offset + size

/-- No element belongs to a slice. -/
def IsEmptySlice (size offset length : Int) : Prop :=
  sliceStart size offset < 0 ∨ size < sliceStart size offset ∨ length ≤ 0

instance (size offset length : Int) : Decidable (IsEmptySlice size offset length) :=
  inferInstanceAs (Decidable (_ ∨ _))

theorem not_isEmptySlice_iff {offset length : Int} : ¬ IsEmptySlice size offset length ↔
    0 ≤ sliceStart size offset ∧ sliceStart size offset ≤ size ∧ 0 < length := by
  simp only [IsEmptySlice, not_or, Int.not_lt, Int.not_le]

/-- **Slice**: at most `length` elements of a list from the place `offset` on, which counts from the end
if it is negative. -/
def IsSlice (offset length : Int) (xs part : List α) : Prop :=
  let start := sliceStart xs.length offset
  if IsEmptySlice xs.length offset length then part = []
  else IsPart start (min (start + length) xs.length) xs part

/-! ### Bounds -/

theorem toInt_ofNat (hsize : size ≤ Int64.maxValue.toInt) : (Int64.ofNat size).toInt = size := by
  rw [Int64.toInt_maxValue] at hsize
  exact Int64.toInt_ofNat_of_lt (by omega)

/-- **The first place** of a slice is a word, and the sum that gives it does not wrap around. -/
theorem exists_start (hsize : size ≤ Int64.maxValue.toInt) (offset : Int64) :
    ∃ start : Int64,
      (if offset < 0 then Number.overflowingAdd offset (Int64.ofNat size) else (offset, false)) =
        (start, false) ∧ start.toInt = sliceStart size offset.toInt := by
  have hvalue := toInt_ofNat hsize
  have hlo := offset.le_toInt
  have hhi := (Int64.ofNat size).toInt_lt
  simp only [Int64.lt_iff_toInt_lt, Int64.toInt_zero, sliceStart]
  by_cases hneg : offset.toInt < 0
  · rw [if_pos hneg, if_neg (Int.not_le.2 hneg)]
    exact Number.overflowingAdd_eq (by rw [hvalue]) (by omega) (by omega)
  · rw [if_neg hneg, if_pos (Int.not_lt.1 hneg)]
    exact ⟨offset, rfl, rfl⟩

/-- **The end** of a slice that begins within the list is its exact end, also where the sum saturates. -/
theorem toInt_min_saturatingAdd {start length size : Int64} (hstart : 0 ≤ start.toInt)
    (hle : start.toInt ≤ size.toInt) (hlength : 0 < length.toInt) :
    (min (Number.saturatingAdd start length) size).toInt =
      min (start.toInt + length.toInt) size.toInt := by
  have hhi := size.toInt_lt
  rw [Number.toInt_min, Number.toInt_saturatingAdd]
  omega

/-- **The bounds of a slice**, computed without the machine. -/
theorem window?_eq (hsize : size ≤ Int64.maxValue.toInt) (offset length : Int64) :
    window? size offset length =
      (if IsEmptySlice size offset.toInt length.toInt then none
        else some ((sliceStart size offset.toInt).toNat,
          (min (sliceStart size offset.toInt + length.toInt) size).toNat), false) := by
  obtain ⟨word, hword, hstart⟩ := exists_start hsize offset
  have hvalue := toInt_ofNat hsize
  have hempty : (word < 0 || Int64.ofNat size < word || length ≤ 0) = true ↔
      IsEmptySlice size offset.toInt length.toInt := by
    simp [IsEmptySlice, Int64.lt_iff_toInt_lt, Int64.le_iff_toInt_le, hvalue, hstart, or_assoc]
  rw [window?]
  simp only [hword]
  by_cases h : IsEmptySlice size offset.toInt length.toInt
  · rw [if_pos (hempty.2 h), if_pos h]
  · rw [if_neg (mt hempty.1 h), if_neg h]
    obtain ⟨hnonneg, hle, hlength⟩ := not_isEmptySlice_iff.1 h
    have hstop : (min (Number.saturatingAdd word length) (Int64.ofNat size)).toInt = _ :=
      toInt_min_saturatingAdd (by omega) (by omega) hlength
    rw [Number.toSize_eq (by omega), Number.toSize_eq (by omega), hstop, hstart, hvalue]

/-- **The bounds are places in the list**, in order. -/
theorem window?_le (hsize : size ≤ Int64.maxValue.toInt) {offset length : Int64} {start stop : Nat}
    (h : (window? size offset length).1 = some (start, stop)) : start ≤ stop ∧ stop ≤ size := by
  rw [window?_eq hsize] at h
  split at h
  · nomatch h
  · next hsome =>
    obtain ⟨hnonneg, hle, hlength⟩ := not_isEmptySlice_iff.1 hsome
    simp only [Option.some.injEq, Prod.mk.injEq] at h
    omega

/-- **A slice has its elements.** -/
theorem isSlice_sliceList (hsize : xs.length ≤ Int64.maxValue.toInt) (offset length : Int64) :
    IsSlice offset.toInt length.toInt xs (sliceList xs offset length) := by
  rw [sliceList, window?_eq hsize, IsSlice]
  by_cases h : IsEmptySlice xs.length offset.toInt length.toInt
  · rw [if_pos h, if_pos h, Option.elim_none]
  · rw [if_neg h, if_neg h, Option.elim_some]
    obtain ⟨hnonneg, hle, hlength⟩ := not_isEmptySlice_iff.1 h
    let stop := min (sliceStart xs.length offset.toInt + length.toInt) xs.length
    have hpart : IsPart (sliceStart xs.length offset.toInt).toNat stop.toNat xs _ :=
      isPart_drop_take (by omega) (by omega)
    rwa [Int.toNat_of_nonneg hnonneg, Int.toNat_of_nonneg (by omega)] at hpart

/-- **Changing each element** commutes with slicing. -/
theorem sliceList_map (f : α → β) (xs : List α) (offset length : Int64) :
    sliceList (xs.map f) offset length = (sliceList xs offset length).map f := by
  rw [sliceList, sliceList, List.length_map]
  cases (window? xs.length offset length).1 with
  | none => rfl
  | some bounds =>
    rw [Option.elim_some, Option.elim_some, List.map_drop, List.map_take]

end Slices

/-! ### The filter -/

namespace Filter

variable {host : Host} {history : History} {args : FilterArguments} {offset length : Int64}

theorem apply_slice (value : Value) (hoffset : args.get? 0 "offset" = some (.int offset))
    (hlength : (args.get? 1 "length").getD (.int 1) = .int length) :
    slice.apply host history value args =
      .ok (sliceOf (host history) offset length value, history) := by
  rw [apply_of_ne_map (by decide)]
  simp only [evaluate, FilterArguments.required_eq hoffset, indexOr_eq hlength, bind, Except.bind]
  rfl

end Filter

/-- The characters of a text, one by one, make up the text. -/
theorem Value.listText_characters (objects : Objects) (cs : List Char) :
    Value.listText objects (cs.map fun c => Value.ofChars [c]) = String.ofList cs := by
  induction cs with
  | nil => rfl
  | cons c cs ih =>
    rw [List.map_cons, Value.listText, ih, String.ofList_cons]
    rfl

/-- **Slices are exact.** Those of lists and of texts have just the elements or characters from the
offset on, as many as the length says and as there are; the length is one unless it is given. The slice
of a text is the text of the slice of its characters. No sum wraps around on the way, and the bounds are
places in the list. Nothing in memory has more elements than the greatest word. -/
theorem exact_slices (host : Host) (history : History) (args : FilterArguments) (offset length : Int64)
    (hoffset : args.get? 0 "offset" = some (.int offset))
    (hlength : (args.get? 1 "length").getD (.int 1) = .int length) :
    let run (value : Value) := Filter.slice.apply host history value args
    (∀ items : List Value, items.length ≤ Int64.maxValue.toInt →
      ∃ part, run (.list items) = .ok (.list part, history) ∧
        IsSlice offset.toInt length.toInt items part) ∧
    (∀ s : String, s.length ≤ Int64.maxValue.toInt →
      ∃ part, run (.str s) = .ok (.ofChars part, history) ∧
        IsSlice offset.toInt length.toInt s.toList part) ∧
    (∀ s : String, ∃ part,
      run (.list (s.toList.map fun c => .ofChars [c])) = .ok (.list part, history) ∧
      run (.str s) = .ok (.str ((Value.list part).text (host history)), history)) ∧
    (∀ size : Nat, size ≤ Int64.maxValue.toInt →
      (window? size offset length).2 = false ∧
      ∀ start stop, (window? size offset length).1 = some (start, stop) →
        start ≤ stop ∧ stop ≤ size) := by
  intro run
  have hrun (value : Value) : run value = _ := Filter.apply_slice value hoffset hlength
  refine ⟨fun items hsize => ?_, fun s hsize => ?_, fun s => ?_, fun size hsize => ?_⟩
  · exact ⟨_, hrun _, isSlice_sliceList hsize offset length⟩
  · exact ⟨_, hrun _, isSlice_sliceList hsize offset length⟩
  · refine ⟨_, hrun _, (hrun _).trans ?_⟩
    rw [sliceList_map, Value.text, Value.listText_characters]
    rfl
  · refine ⟨?_, fun start stop hbounds => window?_le hsize hbounds⟩
    rw [window?_eq hsize]

/-- An offset that counts from the end, with a length that goes beyond it. -/
theorem exact_slices_from_the_end :
    let host : Host := fun _ => ⟨fun _ _ => none, fun _ _ => none, fun _ => ""⟩
    let args : FilterArguments :=
      { positional := [.int (-2)], named := [("length", .int Int64.maxValue)] }
    let items : List Value := [.str "ä", .int 7, .none]
    args.get? 0 "offset" = some (.int (-2)) ∧
      (args.get? 1 "length").getD (.int 1) = .int Int64.maxValue ∧ items.length ≤ Int64.maxValue.toInt ∧
      Filter.slice.apply host [] (.list items) args = .ok (.list [.int 7, .none], []) ∧
      IsSlice (-2 : Int64).toInt Int64.maxValue.toInt items [.int 7, .none] ∧
      (window? items.length (-2) Int64.maxValue).2 = false := by
  intro host args items
  have hsize : items.length ≤ Int64.maxValue.toInt := by decide
  have hslices := exact_slices host [] args (-2) Int64.maxValue rfl rfl
  have hbounds : window? items.length (-2) Int64.maxValue = (some (1, 3), false) := by decide
  have hrun : Filter.slice.apply host [] (.list items) args = .ok (.list [.int 7, .none], []) := by
    rw [Filter.apply_slice (.list items) rfl rfl, Filter.sliceOf, sliceList, hbounds]
    rfl
  obtain ⟨part, hpart, hslice⟩ := hslices.1 items hsize
  cases hrun.symm.trans hpart
  exact ⟨rfl, rfl, hsize, hrun, hslice, (hslices.2.2.2 _ hsize).1⟩

end LiquidTemplate
