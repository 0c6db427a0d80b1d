import LiquidTemplate.Filter
import LiquidTemplate.Proofs.Filters.Replacing

/-!
# Stripped markup

A tag goes from `<` to the next `>`, and so do the blocks, whose ends have a `>` in them. A `<` that is
left has no `>` behind it, neither in the text nor in what is left of that. So nothing that is taken out
makes a tag of what is around it.

* `Markup.Untagged`: a text without tags.
* `Markup.untagged_strip`, `Markup.strip_of_untagged`: nothing is a tag in what is left, and such a text
  stays as it is.
* `stripping`: the filter `strip_html`.
-/

namespace LiquidTemplate

namespace Markup

open Text

variable {c : Char} {cs before behind : List Char}

/-! ### Texts without tags -/

/-- **Untagged text**: no `<` in it has a `>` anywhere behind it. -/
def Untagged (cs : List Char) : Prop :=
  ∀ before behind, cs = before ++ '<' :: behind → '>' ∉ behind

theorem untagged_nil : Untagged [] :=
  fun _ _ h => absurd h.symm (List.append_ne_nil_of_right_ne_nil _ (List.cons_ne_nil _ _))

theorem untagged_cons : Untagged (c :: cs) ↔ (c = '<' → '>' ∉ cs) ∧ Untagged cs := by
  constructor
  · intro h
    refine ⟨fun hc => h [] cs (by rw [hc]; rfl), fun before behind hcs => ?_⟩
    exact h (c :: before) behind (by rw [hcs]; rfl)
  · rintro ⟨hfirst, hrest⟩ before behind h
    cases before with
    | nil =>
      obtain ⟨rfl, rfl⟩ := List.cons.inj h
      exact hfirst rfl
    | cons b before =>
      obtain ⟨-, hcs⟩ := List.cons.inj h
      exact hrest before behind hcs

/-! ### Tags -/

theorem cut?_eq_none_iff {n : Char} : cut? [n] cs = none ↔ n ∉ cs := by
  refine ⟨fun hnone hmem => ?_, cut?_of_not_mem⟩
  obtain ⟨before, behind, rfl, hbefore⟩ := List.eq_append_cons_of_mem hmem
  rw [cut?_append_of_not_mem hbefore behind] at hnone
  cases hnone

theorem stripTags_nil : stripTags [] = [] := by
  rw [stripTags]

/-- **A tag** is left out. -/
theorem stripTags_of_cut {inside rest : List Char} (h : cut? ['>'] cs = some (inside, rest)) :
    stripTags ('<' :: cs) = stripTags rest := by
  rw [stripTags]
  split
  · next hcut =>
    rw [if_pos rfl, h] at hcut
    cases hcut
    rfl
  · next hcut =>
    rw [if_pos rfl, h] at hcut
    cases hcut

/-- **A character** with which no tag begins stays. -/
theorem stripTags_of_not_mem (h : c = '<' → '>' ∉ cs) : stripTags (c :: cs) = c :: stripTags cs := by
  rw [stripTags]
  split
  · next hcut =>
    split at hcut
    · next hc => rw [cut?_of_not_mem (h hc)] at hcut; cases hcut
    · cases hcut
  · rfl

/-- **Induction along a text**, from tag to tag and from one other character to the next. -/
theorem tag_induction {motive : List Char → Prop} (nil : motive [])
    (tag : ∀ cs inside rest, cut? ['>'] cs = some (inside, rest) → motive rest → motive ('<' :: cs))
    (plain : ∀ c cs, (c = '<' → '>' ∉ cs) → motive cs → motive (c :: cs)) (cs : List Char) :
    motive cs := by
  induction cs using stripTags.induct with
  | case1 => exact nil
  | case2 c cs inside rest h ih =>
    split at h
    · next hc => exact hc ▸ tag cs inside rest h ih
    · cases h
  | case3 c cs h ih =>
    refine plain c cs (fun hc => cut?_eq_none_iff.1 ?_) ih
    rwa [dif_pos hc] at h

theorem stripTags_sublist (cs : List Char) : (stripTags cs).Sublist cs := by
  induction cs using tag_induction with
  | nil => simp [stripTags_nil]
  | tag cs inside rest h ih =>
    rw [stripTags_of_cut h, cut?_eq h]
    exact (ih.trans (List.sublist_append_right _ rest)).cons _
  | plain c cs h ih =>
    rw [stripTags_of_not_mem h]
    exact ih.cons_cons c

/-- **Tags are gone**: a `<` stays only where no `>` is behind it. -/
theorem untagged_stripTags (cs : List Char) : Untagged (stripTags cs) := by
  induction cs using tag_induction with
  | nil =>
    rw [stripTags_nil]
    exact untagged_nil
  | tag cs inside rest h ih => rwa [stripTags_of_cut h]
  | plain c cs h ih =>
    rw [stripTags_of_not_mem h]
    exact untagged_cons.2 ⟨fun hc hmem => h hc ((stripTags_sublist cs).mem hmem), ih⟩

theorem stripTags_of_untagged (h : Untagged cs) : stripTags cs = cs := by
  induction cs with
  | nil => exact stripTags_nil
  | cons c cs ih =>
    obtain ⟨hfirst, hrest⟩ := untagged_cons.1 h
    rw [stripTags_of_not_mem hfirst, ih hrest]

/-! ### Blocks -/

/-- No other character becomes a `>` without its case. -/
theorem eq_of_foldCase (h : foldCase c = '>') : c = '>' := by
  rw [foldCase] at h
  split at h
  · cases h
  · delta Char.toLower at h
    split at h
    · next hupper =>
      have hvalue := congrArg (fun c => c.val.toNat) h
      simp only [ge_iff_le, Char.reduceVal, UInt32.le_iff_toNat_le, UInt32.reduceToNat,
        UInt32.reduceSub, UInt32.toNat_add] at hupper hvalue
      omega
    · exact h

/-- **A block has a `>` in it**, in its end. -/
theorem mem_of_afterBlock? {opening closing : String} {rest : List Char} (hend : '>' ∈ closing.toList)
    (h : afterBlock? opening closing cs = some rest) : '>' ∈ cs := by
  obtain ⟨inner, hinner, h⟩ := Option.bind_eq_some_iff.1 h
  obtain ⟨⟨inside, behind⟩, hcut, -⟩ := Option.map_eq_some_iff.1 h
  have hmem : '>' ∈ cs.map foldCase := by
    rw [after?_eq_some_iff.1 hinner, cut?_eq hcut]
    simp [hend]
  obtain ⟨d, hd, hfold⟩ := List.mem_map.1 hmem
  exact eq_of_foldCase hfold ▸ hd

theorem mem_of_afterAnyBlock? {rest : List Char} (h : afterAnyBlock? cs = some rest) : '>' ∈ cs := by
  obtain ⟨b, hb, h⟩ := List.exists_of_findSome?_eq_some h
  have hends : ∀ b ∈ blocks, '>' ∈ b.2.toList := by decide
  exact mem_of_afterBlock? (hends b hb) h

theorem sublist_of_afterAnyBlock? {rest : List Char} (h : afterAnyBlock? cs = some rest) :
    rest.Sublist cs := by
  obtain ⟨b, -, h⟩ := List.exists_of_findSome?_eq_some h
  obtain ⟨inner, -, h⟩ := Option.bind_eq_some_iff.1 h
  obtain ⟨parts, -, rfl⟩ := Option.map_eq_some_iff.1 h
  exact List.drop_sublist _ cs

theorem stripBlocks_nil : stripBlocks [] = [] := by
  rw [stripBlocks]

theorem stripBlocks_of_some {rest : List Char} (h : afterAnyBlock? ('<' :: cs) = some rest) :
    stripBlocks ('<' :: cs) = stripBlocks rest := by
  rw [stripBlocks]
  split
  · next hrest =>
    rw [if_pos rfl, h] at hrest
    cases hrest
    rfl
  · next hrest =>
    rw [if_pos rfl, h] at hrest
    cases hrest

theorem stripBlocks_of_none (h : c = '<' → afterAnyBlock? (c :: cs) = none) :
    stripBlocks (c :: cs) = c :: stripBlocks cs := by
  rw [stripBlocks]
  split
  · next hrest =>
    split at hrest
    · next hc => rw [h hc] at hrest; cases hrest
    · cases hrest
  · rfl

theorem stripBlocks_sublist (cs : List Char) : (stripBlocks cs).Sublist cs := by
  induction cs using stripBlocks.induct with
  | case1 => simp [stripBlocks_nil]
  | case2 c cs rest h ih =>
    split at h
    · next hc =>
      subst hc
      rw [stripBlocks_of_some h]
      exact ih.trans (sublist_of_afterAnyBlock? h)
    · cases h
  | case3 c cs h ih =>
    rw [stripBlocks_of_none fun hc => by rwa [dif_pos hc] at h]
    exact ih.cons_cons c

theorem stripBlocks_of_untagged (h : Untagged cs) : stripBlocks cs = cs := by
  induction cs with
  | nil => exact stripBlocks_nil
  | cons c cs ih =>
    obtain ⟨hfirst, hrest⟩ := untagged_cons.1 h
    have hnone (hc : c = '<') : afterAnyBlock? (c :: cs) = none := by
      rw [Option.eq_none_iff_forall_ne_some]
      intro rest hblock
      have hmem := (List.mem_cons.1 (mem_of_afterAnyBlock? hblock)).resolve_left (hc ▸ by decide)
      exact hfirst hc hmem
    rw [stripBlocks_of_none hnone, ih hrest]

/-! ### Both -/

/-- **Nothing is a tag** in what is left. -/
theorem untagged_strip (cs : List Char) : Untagged (strip cs) :=
  untagged_stripTags (stripBlocks cs)

theorem strip_sublist (cs : List Char) : (strip cs).Sublist cs :=
  (stripTags_sublist _).trans (stripBlocks_sublist cs)

/-- **A text without tags** stays as it is, because a block has a tag in it. -/
theorem strip_of_untagged (h : Untagged cs) : strip cs = cs := by
  rw [strip, stripBlocks_of_untagged h, stripTags_of_untagged h]

end Markup

theorem Filter.apply_stripHtml {host : Host} {history : History} {args : FilterArguments}
    (value : Value) :
    stripHtml.apply host history value args =
      .ok (.ofChars (Markup.strip (value.chars (host history))), history) := by
  rw [apply_of_ne_map (by decide)]
  rfl

/-- **Stripping leaves no tag**: in what is left no `>` is behind a `<`, and it is made of characters of
the text in their order. A text stays as it is exactly if it has no tags, and so stripping again changes
nothing. -/
theorem stripping (host : Host) (history : History) (args more : FilterArguments) (value : Value) :
    let run (value : Value) (args : FilterArguments) := Filter.stripHtml.apply host history value args
    (∃ out : String, run value args = .ok (.str out, history) ∧
      Markup.Untagged out.toList ∧ out.toList.Sublist (value.chars (host history)) ∧
      run (.str out) more = .ok (.str out, history)) ∧
    (∀ s : String, run (.str s) args = .ok (.str s, history) ↔ Markup.Untagged s.toList) := by
  intro run
  have hrun (value : Value) (args : FilterArguments) : run value args = _ :=
    Filter.apply_stripHtml value
  have hkept (s : String) (args : FilterArguments) :
      run (.str s) args = .ok (.str s, history) ↔ Markup.Untagged s.toList := by
    have hchars : (Value.str s).chars (host history) = s.toList := rfl
    rw [hrun, hchars]
    constructor
    · intro h
      injection h with h
      injection h with h _
      injection h with h
      rw [← h, String.toList_ofList]
      exact Markup.untagged_strip _
    · intro h
      rw [Markup.strip_of_untagged h, Value.ofChars, String.ofList_toList]
  refine ⟨⟨_, hrun value args, ?_, ?_, ?_⟩, fun s => hkept s args⟩
  · rw [String.toList_ofList]
    exact Markup.untagged_strip _
  · rw [String.toList_ofList]
    exact Markup.strip_sublist _
  · rw [hkept, String.toList_ofList]
    exact Markup.untagged_strip _

-- what is around a block can make a tag, which is then stripped as well
example : Markup.strip "a<scr<script>1</script>ipt>b>".toList = "ab>".toList := by
  decide +kernel

end LiquidTemplate
