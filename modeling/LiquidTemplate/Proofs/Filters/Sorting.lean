import LiquidTemplate.Filter
import LiquidTemplate.Proofs.Filters.Order

/-!
# Sorted lists

A list is sorted by putting its elements one by one among those before them. If the comparison is a
preorder on the elements this gives the one list that is in order and keeps what compares equal as it
stood.

* `Sort.Sorts`: a list is the stable sort of another one.
* `Sort.sorts_ofList`: sorting gives it.
* `Value.FloatFree`: values without doubles, on which the order of values is a preorder.
* `sorting`: the filters `sort` and `sort_natural`.
-/

namespace LiquidTemplate.Sort

variable {α : Type} {cmp : α → α → Ordering} {x y z : α} {xs ys zs : List α}

/-- Whether two elements compare equal. -/
def alike (cmp : α → α → Ordering) (x y : α) : Bool :=
  cmp x y == .eq

/-- **Stable sort.** `ys` has the elements of `xs`, none of them in front of one than which it is
greater, and those that compare equal to one another in the same order as there. -/
structure Sorts (cmp : α → α → Ordering) (xs ys : List α) : Prop where
  perm : ys.Perm xs
  ordered : ys.Pairwise fun a b => cmp a b ≠ .gt
  stable : ∀ z ∈ xs, ys.filter (alike cmp z) = xs.filter (alike cmp z)

/-- **A preorder** on the elements of a list. -/
structure Preorders (cmp : α → α → Ordering) (zs : List α) : Prop where
  swap : ∀ x ∈ zs, ∀ y ∈ zs, cmp y x = (cmp x y).swap
  trans : ∀ x ∈ zs, ∀ y ∈ zs, ∀ z ∈ zs, cmp x y ≠ .gt → cmp y z ≠ .gt → cmp x z ≠ .gt

namespace Preorders

variable (h : Preorders cmp zs)

include h

theorem ne_gt_of_ne_lt (hx : x ∈ zs) (hy : y ∈ zs) (hxy : cmp x y ≠ .lt) : cmp y x ≠ .gt := by
  rw [h.swap x hx y hy]
  cases hcmp : cmp x y with
  | lt => exact absurd hcmp hxy
  | eq | gt => decide

/-- What compares equal to a third element is not told apart. -/
theorem ne_lt_of_eq (hx : x ∈ zs) (hy : y ∈ zs) (hz : z ∈ zs) (hzx : cmp z x = .eq)
    (hzy : cmp z y = .eq) : cmp x y ≠ .lt := by
  intro hxy
  have hyz : cmp y z ≠ .gt := h.ne_gt_of_ne_lt hz hy (by rw [hzy]; decide)
  have hyx : cmp y x ≠ .gt := h.trans y hy z hz x hx hyz (by rw [hzx]; decide)
  rw [h.swap x hx y hy, hxy] at hyx
  exact hyx rfl

end Preorders

/-! ### Putting in one element -/

theorem insertLast_subset {less : α → α → Bool} (hx : x ∈ zs) (hys : ys ⊆ zs) :
    insertLast less x ys ⊆ zs := by
  intro w hw
  rcases List.mem_cons.1 ((insertLast_perm less x ys).mem_iff.1 hw) with rfl | hw
  · exact hx
  · exact hys hw

/-- **An element is put in where it belongs.** The list stands in reverse. -/
theorem ordered_insertLast (h : Preorders cmp zs) (hx : x ∈ zs) (hys : ys ⊆ zs)
    (hordered : ys.Pairwise fun b a => cmp a b ≠ .gt) :
    (insertLast (fun a b => cmp a b == .lt) x ys).Pairwise fun b a => cmp a b ≠ .gt := by
  induction ys with
  | nil => exact List.pairwise_singleton _ _
  | cons y ys ih =>
    have hy : y ∈ zs := hys List.mem_cons_self
    obtain ⟨hfirst, hrest⟩ := List.pairwise_cons.1 hordered
    rw [insertLast]
    split
    · next hless =>
      have hxy : cmp x y = .lt := beq_iff_eq.1 hless
      refine List.pairwise_cons.2 ⟨fun w hw => ?_, ih (fun v hv => hys (.tail _ hv)) hrest⟩
      rcases List.mem_cons.1 ((insertLast_perm _ x ys).mem_iff.1 hw) with rfl | hw
      · rw [hxy]
        decide
      · exact hfirst w hw
    · next hless =>
      have hyx : cmp y x ≠ .gt := h.ne_gt_of_ne_lt hx hy (mt beq_iff_eq.2 hless)
      refine List.pairwise_cons.2 ⟨fun w hw => ?_, hordered⟩
      rcases List.mem_cons.1 hw with rfl | hmem
      · exact hyx
      · exact h.trans w (hys hw) y hy x hx (hfirst w hmem) hyx

/-- **An element is put behind those that it compares equal to**, which come after it in reverse. -/
theorem filter_insertLast (h : Preorders cmp zs) (hx : x ∈ zs) (hys : ys ⊆ zs) (hz : z ∈ zs) :
    (insertLast (fun a b => cmp a b == .lt) x ys).filter (alike cmp z) =
      (x :: ys).filter (alike cmp z) := by
  induction ys with
  | nil => rfl
  | cons y ys ih =>
    have hy : y ∈ zs := hys List.mem_cons_self
    rw [insertLast]
    split
    · next hless =>
      have hxy : cmp x y = .lt := beq_iff_eq.1 hless
      have ih := ih fun v hv => hys (.tail _ hv)
      by_cases hzx : alike cmp z x = true
      · have hzy : ¬ alike cmp z y = true := fun hzy =>
          h.ne_lt_of_eq hx hy hz (beq_iff_eq.1 hzx) (beq_iff_eq.1 hzy) hxy
        rw [List.filter_cons_of_neg hzy, ih, List.filter_cons_of_pos hzx, List.filter_cons_of_pos hzx,
          List.filter_cons_of_neg hzy]
      · rw [List.filter_cons, ih, List.filter_cons_of_neg hzx, List.filter_cons_of_neg hzx,
          List.filter_cons]
    · rfl

/-! ### Putting in all elements -/

theorem ordered_insertAll (h : Preorders cmp zs) (hxs : xs ⊆ zs) (hys : ys ⊆ zs)
    (hordered : ys.Pairwise fun b a => cmp a b ≠ .gt) :
    (insertAll (fun a b => cmp a b == .lt) ys xs).Pairwise fun b a => cmp a b ≠ .gt := by
  induction xs generalizing ys with
  | nil => exact hordered
  | cons x xs ih =>
    have hx : x ∈ zs := hxs List.mem_cons_self
    exact ih (fun v hv => hxs (.tail _ hv)) (insertLast_subset hx hys)
      (ordered_insertLast h hx hys hordered)

theorem filter_insertAll (h : Preorders cmp zs) (hxs : xs ⊆ zs) (hys : ys ⊆ zs) (hz : z ∈ zs) :
    (insertAll (fun a b => cmp a b == .lt) ys xs).filter (alike cmp z) =
      (xs.reverse ++ ys).filter (alike cmp z) := by
  induction xs generalizing ys with
  | nil => rfl
  | cons x xs ih =>
    have hx : x ∈ zs := hxs List.mem_cons_self
    rw [insertAll, ih (fun v hv => hxs (.tail _ hv)) (insertLast_subset hx hys), List.filter_append,
      filter_insertLast h hx hys hz, List.reverse_cons, List.append_assoc, List.filter_append]
    rfl

/-- **Sorting** gives the stable sort. -/
theorem sorts_ofList (h : Preorders cmp xs) : Sorts cmp xs (ofList (fun a b => cmp a b == .lt) xs) where
  perm := ofList_perm _ xs
  ordered := by
    rw [ofList, List.pairwise_reverse]
    exact ordered_insertAll h (List.Subset.refl xs) (List.nil_subset xs) List.Pairwise.nil
  stable z hz := by
    rw [ofList, List.filter_reverse,
      filter_insertAll h (List.Subset.refl xs) (List.nil_subset xs) hz, List.append_nil,
      List.filter_reverse, List.reverse_reverse]

end LiquidTemplate.Sort

namespace LiquidTemplate

namespace Value

variable {objects : Objects} {v w : Value} {name : String}

/-! ### Values without doubles -/

/-- **Float-free**: no double is within the value, its objects included. -/
def FloatFree (objects : Objects) (v : Value) : Prop :=
  ∀ x, ¬ (float x).Within objects v

@[simp] theorem floatFree_undefined : undefined.FloatFree objects :=
  fun _ h => nomatch h

@[simp] theorem floatFree_none : (none : Value).FloatFree objects :=
  fun _ h => nomatch h

@[simp] theorem floatFree_int {n : Int64} : (int n).FloatFree objects :=
  fun _ h => nomatch h

@[simp] theorem floatFree_str {s : String} : (str s).FloatFree objects :=
  fun _ h => nomatch h

@[simp] theorem floatFree_list {items : List Value} :
    (list items).FloatFree objects ↔ ∀ v ∈ items, v.FloatFree objects := by
  constructor
  · exact fun h v hv x hx => h x (.element hv hx)
  · rintro h x (_ | ⟨hv, hx⟩)
    exact h _ hv x hx

@[simp] theorem floatFree_map {entries : List (String × Value)} :
    (map entries).FloatFree objects ↔ ∀ e ∈ entries, e.2.FloatFree objects := by
  constructor
  · exact fun h e he x hx => h x (.entry he hx)
  · rintro h x (_ | _ | ⟨hv, hx⟩)
    exact h _ hv x hx

@[simp] theorem floatFree_object {id : Nat} :
    (object id).FloatFree objects ↔
      (∀ name v, objects.attribute? id name = some v → v.FloatFree objects) ∧
        ∀ name v, objects.method? id name = some v → v.FloatFree objects := by
  constructor
  · exact fun h => ⟨fun _ _ hv x hx => h x (.attribute hv hx), fun _ _ hv x hx => h x (.method hv hx)⟩
  · rintro ⟨hattribute, hmethod⟩ x (_ | _ | _ | ⟨hv, hx⟩ | ⟨hv, hx⟩)
    · exact hattribute _ _ hv x hx
    · exact hmethod _ _ hv x hx

/-- The end of a list, which is missing if the list is empty. -/
theorem FloatFree.getD {items : List Value} (h : (list items).FloatFree objects)
    {found : Option Value} (hfound : ∀ v, found = some v → v ∈ items) :
    (found.getD none).FloatFree objects := by
  cases found with
  | none => exact floatFree_none
  | some v => exact floatFree_list.1 h v (hfound v rfl)

/-- **A part** of a float-free value is float-free. -/
theorem FloatFree.field? (h : v.FloatFree objects) (hw : v.field? objects name = some w) :
    w.FloatFree objects := by
  unfold Value.field? at hw
  split at hw
  · obtain ⟨front, back, rfl, -⟩ := List.lookup_eq_some_iff.1 hw
    exact floatFree_map.1 h _ (List.mem_append_right front List.mem_cons_self)
  · split at hw
    · obtain rfl := Option.some.inj hw
      exact floatFree_int
    · obtain rfl := Option.some.inj hw
      exact h.getD fun v => List.mem_of_head?
    · obtain rfl := Option.some.inj hw
      exact h.getD fun v => List.mem_of_getLast?
    · cases hw
  · next id =>
    cases hattribute : objects.attribute? id name with
    | some u =>
      rw [hattribute] at hw
      obtain rfl := Option.some.inj hw
      exact (floatFree_object.1 h).1 _ _ hattribute
    | none =>
      rw [hattribute] at hw
      exact (floatFree_object.1 h).2 _ _ hw
  · cases hw

/-- **The key** of a float-free value is float-free. -/
theorem FloatFree.key (h : v.FloatFree objects) (property : Option String) :
    (key objects property v).FloatFree objects := by
  cases property with
  | none => exact h
  | some name =>
    show ((v.field? objects name).getD undefined).FloatFree objects
    cases hw : v.field? objects name with
    | none => exact floatFree_undefined
    | some w => exact h.field? hw

/-- **The order of values** is a preorder on keys without doubles. -/
theorem preorders_compare {items : List Value} (h : ∀ v ∈ items, v.FloatFree objects)
    (property : Option String) :
    Sort.Preorders (fun a b => compare (key objects property a) (key objects property b)) items := by
  have hordered : Quantity.Ordered fun q => ∃ n, q = .int n := by
    refine ⟨?_, fun _ _ _ _ _ ⟨n, hn⟩ => nomatch hn⟩
    rintro q ⟨n, rfl⟩
    exact ⟨_, rfl⟩
  have hnumbers {v : Value} (hv : v ∈ items) :
      (key objects property v).Numbers objects fun q => ∃ n, q = .int n := by
    intro q hq
    cases q with
    | int n => exact ⟨n, rfl⟩
    | float x => exact absurd hq ((h v hv).key property x)
  exact ⟨fun x _ y _ => compare_swap _ _, fun x hx y hy z hz =>
    compare_trans hordered (hnumbers hx) (hnumbers hy) (hnumbers hz)⟩

/-- **The order of texts without regard to case** is a preorder on all keys. -/
theorem preorders_compareNatural (lower : List Char → List Char) (objects : Objects)
    (f : Value → Value) (items : List Value) :
    Sort.Preorders (fun a b => compareNatural lower objects (f a) (f b)) items :=
  ⟨fun _ _ _ _ => Std.OrientedOrd.eq_swap, fun _ _ _ _ _ _ => ne_gt_trans⟩

end Value

/-! ### The filters -/

/-- **Sorting** a list without doubles gives its stable sort by the keys, whether they are compared as
values or as texts. Any other value stays as it is. -/
theorem sorting (host : Host) (history : History) (args : FilterArguments) :
    let objects := host history
    let key := Value.key objects (args.text? objects 0 "property")
    (∀ items : List Value, (∀ v ∈ items, v.FloatFree objects) →
      (∃ sorted, Filter.sort.apply host history (.list items) args = .ok (.list sorted, history) ∧
        Sort.Sorts (fun a b => (key a).compare (key b)) items sorted) ∧
      ∃ sorted,
        Filter.sortNatural.apply host history (.list items) args = .ok (.list sorted, history) ∧
        Sort.Sorts (fun a b => Value.compareNatural Text.lowerCase objects (key a) (key b)) items
          sorted) ∧
    ∀ value : Value, (∀ items, value ≠ .list items) →
      Filter.sort.apply host history value args = .ok (value, history) ∧
      Filter.sortNatural.apply host history value args = .ok (value, history) := by
  intro objects key
  refine ⟨fun items h => ⟨⟨_, ?_, Sort.sorts_ofList (Value.preorders_compare h _)⟩,
    ⟨_, ?_, Sort.sorts_ofList (Value.preorders_compareNatural Text.lowerCase objects key items)⟩⟩,
    fun value h => ?_⟩
  · rw [Filter.apply_of_ne_map (by decide)]
    rfl
  · rw [Filter.apply_of_ne_map (by decide)]
    rfl
  · have hsort (cmp : Value → Value → Ordering) : value.sortBy cmp key = value := by
      cases value with
      | list items => exact absurd rfl (h items)
      | undefined | none | bool _ | int _ | float _ | str _ | map _ | object _ => rfl
    rw [Filter.apply_of_ne_map (by decide), Filter.apply_of_ne_map (by decide)]
    constructor
    · exact congrArg (fun v => Except.ok (v, history)) (hsort Value.compare)
    · exact congrArg (fun v => Except.ok (v, history))
        (hsort (Value.compareNatural Text.lowerCase objects))

/-- An object, maps, and values without the part by which they are sorted. -/
theorem sorting_mixed :
    let host : Host := fun _ =>
      ⟨fun id name => if id = 0 ∧ name = "n" then some (.int 2) else none, fun _ _ => none, fun _ => ""⟩
    let args : FilterArguments := { positional := [.str "n"] }
    let key := Value.key (host []) (some "n")
    let one : Value := .map [("n", .int 1)]
    let text : Value := .map [("n", .str "a")]
    let items := [.object 0, one, .undefined, text, .list [.int 5]]
    let sorted := [.undefined, .list [.int 5], one, .object 0, text]
    (∀ v ∈ items, v.FloatFree (host [])) ∧
      Filter.sort.apply host [] (.list items) args = .ok (.list sorted, []) ∧
      Sort.Sorts (fun a b => (key a).compare (key b)) items sorted := by
  intro host args key one text items sorted
  have hfree : ∀ v ∈ items, v.FloatFree (host []) := by
    have hobject : (Value.object 0).FloatFree (host []) := by
      refine Value.floatFree_object.2 ⟨fun name v hv => ?_, fun _ _ hv => nomatch hv⟩
      obtain ⟨-, rfl⟩ : name = "n" ∧ Value.int 2 = v := by simpa [host] using hv
      exact Value.floatFree_int
    simp [items, one, text, hobject]
  obtain ⟨found, hfound, hsorts⟩ := ((sorting host [] args).1 items hfree).1
  have hsorted : Filter.sort.apply host [] (.list items) args = .ok (.list sorted, []) := rfl
  rw [hsorted] at hfound
  obtain rfl : sorted = found := by
    injection hfound with hpair
    injection hpair with hlist
    injection hlist
  exact ⟨hfree, hsorted, hsorts⟩

end LiquidTemplate
