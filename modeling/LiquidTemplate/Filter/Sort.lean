/-!
# Stable sorting

Elements are put one by one among those before them, so that the result is fixed even for a
comparison that is not transitive.

* `Sort.insertLast`: puts an element behind the last one that is not greater.
* `Sort.ofList`: the sorted list.
* `Sort.ofList_perm`: sorting only reorders.
-/

namespace LiquidTemplate.Sort

variable {α : Type}

/-- Puts `x` behind the last element that is not greater. The elements of the list stand in reverse,
so that this is the first one here. -/
def insertLast (less : α → α → Bool) (x : α) : List α → List α
  | [] => [x]
  | y :: ys => if less x y then y :: insertLast less x ys else x :: y :: ys

theorem insertLast_perm (less : α → α → Bool) (x : α) (ys : List α) :
    (insertLast less x ys).Perm (x :: ys) := by
  induction ys with
  | nil => exact .refl _
  | cons y ys ih =>
    rw [insertLast]
    split
    · exact (ih.cons y).trans (.swap x y ys)
    · exact .refl _

/-- Puts the elements of a list one by one among those of `sorted`, which stand in reverse. -/
def insertAll (less : α → α → Bool) (sorted : List α) : List α → List α
  | [] => sorted
  | x :: xs => insertAll less (insertLast less x sorted) xs

theorem insertAll_perm (less : α → α → Bool) (sorted xs : List α) :
    (insertAll less sorted xs).Perm (sorted ++ xs) := by
  induction xs generalizing sorted with
  | nil => simp [insertAll]
  | cons x xs ih =>
    have h : (insertLast less x sorted ++ xs).Perm (x :: sorted ++ xs) :=
      (insertLast_perm less x sorted).append_right xs
    exact (ih _).trans (h.trans List.perm_middle.symm)

/-- **Stable sort.** -/
def ofList (less : α → α → Bool) (xs : List α) : List α :=
  (insertAll less [] xs).reverse

/-- **Sorting only reorders.** -/
theorem ofList_perm (less : α → α → Bool) (xs : List α) : (ofList less xs).Perm xs :=
  (List.reverse_perm _).trans (insertAll_perm less [] xs)

end LiquidTemplate.Sort
