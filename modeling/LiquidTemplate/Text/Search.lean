import LiquidTemplate.Text.Basic

/-!
# Searching, splitting and replacing

Occurrences of a text in another are found from left to right and do not overlap.

* `cut?`: the text before and after the first occurrence.
* `split`: the pieces between all occurrences of a separator that is not empty.
* `join`: pieces with a separator between neighbours.
* `replace`: every occurrence replaced; an empty one occurs around every character.
* `replaceFirst`: the first occurrence replaced.
* `cut?_eq`: a cut loses nothing.
* `join_split`: joining the pieces of a split gives the text back.
-/

namespace LiquidTemplate.Text

/-- **Cut at the first occurrence.** What stands before and after the first `needle` in `cs`. -/
def cut? (needle : List Char) : List Char → Option (List Char × List Char)
  | [] => if needle.isEmpty then some ([], []) else none
  | c :: cs =>
    match after? needle (c :: cs) with
    | some rest => some ([], rest)
    | none => (cut? needle cs).map fun (before, rest) => (c :: before, rest)

/-- **A cut loses nothing.** -/
theorem cut?_eq {needle cs before rest : List Char} (h : cut? needle cs = some (before, rest)) :
    cs = before ++ needle ++ rest := by
  induction cs generalizing before rest with
  | nil =>
    simp only [cut?, List.isEmpty_iff] at h
    split at h
    · simp_all
    · simp at h
  | cons c cs ih =>
    simp only [cut?] at h
    split at h
    · next r hr =>
      obtain ⟨rfl, rfl⟩ := by simpa using h
      simpa using after?_eq_some_iff.1 hr
    · obtain ⟨p, hp, hb⟩ := Option.map_eq_some_iff.1 h
      obtain ⟨rfl, rfl⟩ := by simpa using hb
      simp [ih hp]

/-- After a cut at a text that is not empty less is left. -/
theorem length_of_cut? {needle cs before rest : List Char} (hn : needle ≠ [])
    (h : cut? needle cs = some (before, rest)) : rest.length < cs.length := by
  have hl : 0 < needle.length := List.length_pos_iff.2 hn
  simp only [cut?_eq h, List.length_append]
  omega

/-- **Split.** The pieces of `cs` between the occurrences of `separator`; with an empty separator
the whole is one piece. -/
def split (separator cs : List Char) : List (List Char) :=
  match _h : cut? separator cs with
  | some (before, rest) =>
    if _hn : separator = [] then [cs] else before :: split separator rest
  | none => [cs]
termination_by cs.length
decreasing_by exact length_of_cut? _hn _h

/-- **Join.** The pieces with `separator` between neighbours. -/
def join (separator : List Char) : List (List Char) → List Char
  | [] => []
  | [piece] => piece
  | piece :: pieces => piece ++ separator ++ join separator pieces

/-- There is always a first piece. -/
theorem split_ne_nil (separator cs : List Char) : split separator cs ≠ [] := by
  rw [split]
  split
  · split <;> simp
  · simp

/-- **Joining undoes splitting.** -/
theorem join_split (separator cs : List Char) : join separator (split separator cs) = cs := by
  fun_induction split separator cs with
  | case1 cs before rest h hn => simp [join]
  | case2 cs before rest h hn ih =>
    obtain ⟨p, ps, hp⟩ := List.exists_cons_of_ne_nil (split_ne_nil separator rest)
    rw [hp] at ih ⊢
    rw [join, ih, cut?_eq h]
    simp
  | case3 cs h => simp [join]

/-- **Replace every occurrence.** What is before the first one stays, and the search goes on behind it.
An empty `needle` occurs before each character and at the end. -/
def replace (needle replacement cs : List Char) : List Char :=
  if _hn : needle = [] then replacement ++ cs.flatMap fun c => c :: replacement
  else
    match _h : cut? needle cs with
    | some (before, rest) => before ++ replacement ++ replace needle replacement rest
    | none => cs
termination_by cs.length
decreasing_by exact length_of_cut? _hn _h

/-- **Replace the first occurrence.** -/
def replaceFirst (needle replacement cs : List Char) : List Char :=
  match cut? needle cs with
  | some (before, rest) => before ++ replacement ++ rest
  | none => cs

end LiquidTemplate.Text
