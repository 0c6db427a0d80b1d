import LiquidTemplate.Filter

/-!
# First occurrences

The filter `uniq` keeps an item if its key does not equal that of an item that was kept before. Equality
of values is not transitive, since whole numbers are rounded where they are compared with doubles. So the
items that stay out are not told from each other, but from those that were kept.

* `Value.equal_comm`: equality is symmetric.
* `FirstOccurrences`: what is kept of a list, and why the rest is not.
* `Value.exists_firsts`: the loop keeps first occurrences, besides what was seen before.
* `first_occurrences`: the filter `uniq`.
-/

namespace LiquidTemplate

/-! ### Equality -/

/-- Equality with a double goes by the keys, also that of a whole number. -/
theorem Quantity.float_equal_comm (x : Float) (q : Quantity) :
    equal (float x) q = equal q (float x) := by
  generalize hx : key? (float x) = k, hq : key? q = l
  cases q
  all_goals
    simp only [equal, hx, hq]
    cases k with
    | none => cases l <;> rfl
    | some a =>
      cases l with
      | none => rfl
      | some b => exact BEq.comm

theorem Quantity.equal_comm (p q : Quantity) : equal p q = equal q p := by
  cases p with
  | float x => exact float_equal_comm x q
  | int m =>
    cases q with
    | float y => exact (float_equal_comm y (int m)).symm
    | int n => exact BEq.comm

namespace Value

mutual

/-- **Equality is symmetric.** -/
theorem equal_comm (a b : Value) : equal a b = equal b a := by
  cases a with
  | undefined | none => cases b <;> rfl
  | bool x =>
    cases b with
    | bool y => exact BEq.comm
    | _ => rfl
  | int m =>
    cases b with
    | int n => exact BEq.comm
    | float y => exact Quantity.equal_comm (.int m) (.float y)
    | _ => rfl
  | float x =>
    cases b with
    | int n => exact Quantity.equal_comm (.float x) (.int n)
    | float y => exact Quantity.equal_comm (.float x) (.float y)
    | _ => rfl
  | str s =>
    cases b with
    | str t => exact BEq.comm
    | _ => rfl
  | list as =>
    cases b with
    | list bs => exact allEqual_comm as bs
    | _ => rfl
  | map as =>
    cases b with
    | map bs => exact entriesEqual_comm as bs
    | _ => rfl
  | object i =>
    cases b with
    | object j => exact BEq.comm
    | _ => rfl

theorem allEqual_comm (as bs : List Value) : allEqual as bs = allEqual bs as := by
  cases as with
  | nil => cases bs <;> rfl
  | cons a as =>
    cases bs with
    | nil => rfl
    | cons b bs => rw [allEqual, allEqual, equal_comm a b, allEqual_comm as bs]

theorem entriesEqual_comm (as bs : List (String × Value)) : entriesEqual as bs = entriesEqual bs as := by
  cases as with
  | nil => cases bs <;> rfl
  | cons a as =>
    cases bs with
    | nil => rfl
    | cons b bs =>
      obtain ⟨j, a⟩ := a
      obtain ⟨k, b⟩ := b
      rw [entriesEqual, entriesEqual, BEq.comm (a := j), equal_comm a b, entriesEqual_comm as bs]

end

end Value

/-! ### What is kept -/

/-- **First occurrences.** The elements of `ys` are those of `xs` at some places, in order. None of them
is the same as one that was kept before it, and any other element of `xs` is the same as one that was
kept before. -/
def FirstOccurrences {α : Type} (same : α → α → Bool) (xs ys : List α) : Prop :=
  ∃ kept : List (α × Nat), kept.Sublist xs.zipIdx ∧ ys = kept.map Prod.fst ∧
    (kept.Pairwise fun p q => same q.1 p.1 = false) ∧
    ∀ p ∈ xs.zipIdx, p ∉ kept → ∃ q ∈ kept, q.2 < p.2 ∧ same p.1 q.1 = true

theorem FirstOccurrences.sublist {α : Type} {same : α → α → Bool} {xs ys : List α}
    (h : FirstOccurrences same xs ys) : ys.Sublist xs := by
  obtain ⟨kept, hkept, rfl, -⟩ := h
  have hmap := hkept.map Prod.fst
  rwa [List.zipIdx_map_fst] at hmap

namespace Value

variable {key : Value → Value} {seen items : List Value} {v : Value} {n : Nat}
  {places kept : List (Value × Nat)}

/-- Whether the key of an item equals one of the keys in `seen`. -/
def isSeen (key : Value → Value) (seen : List Value) (item : Value) : Bool :=
  seen.any fun s => s.equal (key item)

theorem isSeen_append (key : Value → Value) (seen : List Value) (v item : Value) :
    isSeen key (seen ++ [key v]) item = (isSeen key seen item || (key v).equal (key item)) := by
  simp [isSeen]

theorem uniqFrom_cons (key : Value → Value) (seen : List Value) (v : Value) (vs : List Value) :
    uniqFrom key seen (v :: vs) =
      if isSeen key seen v = true then uniqFrom key seen vs
      else v :: uniqFrom key (seen ++ [key v]) vs := rfl

/-- **First occurrences at places**, where the keys in `seen` are taken already. -/
structure Firsts (key : Value → Value) (seen : List Value)
    (places kept : List (Value × Nat)) : Prop where
  sublist : kept.Sublist places
  new : ∀ p ∈ kept, isSeen key seen p.1 = false
  apart : kept.Pairwise fun p q => (key p.1).equal (key q.1) = false
  dropped : ∀ p ∈ places, p ∉ kept →
    isSeen key seen p.1 = true ∨ ∃ q ∈ kept, q.2 < p.2 ∧ (key q.1).equal (key p.1) = true

/-- An item whose key was seen is left out. -/
theorem Firsts.drop (h : Firsts key seen places kept) (hv : isSeen key seen v = true) :
    Firsts key seen ((v, n) :: places) kept where
  sublist := h.sublist.cons _
  new := h.new
  apart := h.apart
  dropped p hp hnot := by
    rcases List.mem_cons.1 hp with rfl | hp
    · exact .inl hv
    · exact h.dropped p hp hnot

/-- Any other item is kept, and its key is seen from then on. -/
theorem Firsts.keep (h : Firsts key (seen ++ [key v]) places kept) (hv : isSeen key seen v = false)
    (hlater : ∀ p ∈ places, n < p.2) : Firsts key seen ((v, n) :: places) ((v, n) :: kept) where
  sublist := h.sublist.cons_cons _
  new := by
    refine List.forall_mem_cons.2 ⟨hv, fun p hp => ?_⟩
    have hnew := h.new p hp
    rw [isSeen_append, Bool.or_eq_false_iff] at hnew
    exact hnew.1
  apart := by
    refine List.pairwise_cons.2 ⟨fun p hp => ?_, h.apart⟩
    have hnew := h.new p hp
    rw [isSeen_append, Bool.or_eq_false_iff] at hnew
    exact hnew.2
  dropped p hp hnot := by
    rw [List.mem_cons, not_or] at hnot
    have hp := (List.mem_cons.1 hp).resolve_left hnot.1
    rcases h.dropped p hp hnot.2 with hseen | ⟨q, hq, hbefore, hequal⟩
    · rw [isSeen_append, Bool.or_eq_true] at hseen
      exact hseen.imp_right fun hequal => ⟨(v, n), List.mem_cons_self, hlater p hp, hequal⟩
    · exact .inr ⟨q, List.mem_cons_of_mem _ hq, hbefore, hequal⟩

/-- **The loop** keeps the first occurrences. -/
theorem exists_firsts (key : Value → Value) (seen items : List Value) (n : Nat) :
    ∃ kept, uniqFrom key seen items = kept.map Prod.fst ∧ Firsts key seen (items.zipIdx n) kept := by
  induction items generalizing seen n with
  | nil => exact ⟨[], rfl, .slnil, List.forall_mem_nil _, .nil, List.forall_mem_nil _⟩
  | cons v vs ih =>
    rw [uniqFrom_cons, List.zipIdx_cons]
    by_cases hv : isSeen key seen v = true
    · obtain ⟨kept, hkept, hfirsts⟩ := ih seen (n + 1)
      exact ⟨kept, by rw [if_pos hv, hkept], hfirsts.drop hv⟩
    · obtain ⟨kept, hkept, hfirsts⟩ := ih (seen ++ [key v]) (n + 1)
      refine ⟨(v, n) :: kept, by rw [if_neg hv, hkept, List.map_cons], ?_⟩
      exact hfirsts.keep (Bool.eq_false_iff.2 hv) fun p hp => List.le_snd_of_mem_zipIdx hp

/-- **Items with different keys** are all kept. -/
theorem uniqFrom_of_apart (hnew : ∀ v ∈ items, isSeen key seen v = false)
    (hapart : items.Pairwise fun v w => (key v).equal (key w) = false) :
    uniqFrom key seen items = items := by
  induction items generalizing seen with
  | nil => rfl
  | cons v vs ih =>
    obtain ⟨hv, hvs⟩ := List.forall_mem_cons.1 hnew
    obtain ⟨hfirst, hrest⟩ := List.pairwise_cons.1 hapart
    have hstill : ∀ w ∈ vs, isSeen key (seen ++ [key v]) w = false := fun w hw => by
      rw [isSeen_append, hvs w hw, hfirst w hw, Bool.or_false]
    rw [uniqFrom_cons, if_neg (Bool.eq_false_iff.1 hv), ih hstill hrest]

/-- **The first occurrences of items** are kept, by key. -/
theorem firstOccurrences_uniqFrom (key : Value → Value) (items : List Value) :
    FirstOccurrences (fun v w => (key v).equal (key w)) items (uniqFrom key [] items) := by
  obtain ⟨kept, hkept, hfirsts⟩ := exists_firsts key [] items 0
  refine ⟨kept, hfirsts.sublist, hkept, hfirsts.apart.imp fun h => (equal_comm _ _).trans h,
    fun p hp hnot => ?_⟩
  obtain ⟨q, hq, hbefore, hequal⟩ := (hfirsts.dropped p hp hnot).resolve_left Bool.false_ne_true
  exact ⟨q, hq, hbefore, (equal_comm _ _).trans hequal⟩

/-- **Keeping first occurrences again** changes nothing. -/
theorem uniqFrom_uniqFrom (key : Value → Value) (items : List Value) :
    uniqFrom key [] (uniqFrom key [] items) = uniqFrom key [] items := by
  obtain ⟨kept, hkept, hfirsts⟩ := exists_firsts key [] items 0
  rw [hkept]
  exact uniqFrom_of_apart (fun _ _ => rfl) (List.pairwise_map.2 hfirsts.apart)

end Value

/-! ### The filter -/

/-- **The first occurrences** of items are kept, in order, and the others are left out. What counts is
the key of an item: its part with the name that was given, or the item itself. Keeping the first
occurrences again changes nothing. -/
theorem first_occurrences (host : Host) (history : History) (args : FilterArguments) (value : Value) :
    let run (value : Value) := Filter.uniq.apply host history value args
    let key := Value.key (host history) (args.text? (host history) 0 "property")
    ∃ kept, run value = .ok (.list kept, history) ∧ kept.Sublist value.items ∧
      FirstOccurrences (fun v w => (key v).equal (key w)) value.items kept ∧
      run (.list kept) = .ok (.list kept, history) := by
  intro run key
  have hrun (value : Value) :
      run value = .ok (.list (Value.uniqFrom key [] value.items), history) := by
    unfold run
    rw [Filter.apply_of_ne_map (by decide)]
    rfl
  have hfirsts := Value.firstOccurrences_uniqFrom key value.items
  refine ⟨_, hrun value, hfirsts.sublist, hfirsts, ?_⟩
  rw [hrun, Value.items, Value.uniqFrom_uniqFrom]

end LiquidTemplate
