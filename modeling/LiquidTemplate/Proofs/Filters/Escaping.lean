import LiquidTemplate.Filter
import LiquidTemplate.Proofs.Filters.Replacing

/-!
# Escaped texts

Escaping writes references for the characters of markup, and unescaping reads them, one kind after the
other. No kind of reference is made up while another one is read, because each of them begins with an
ampersand and that of the ampersand is read last.

* `Markup.Safe`: a text in which nothing is markup.
* `Markup.safe_escape`: what is escaped is safe.
* `Markup.unescape_escape`: unescaping undoes escaping.
* `escaping`: the filters `escape` and `escape_once`.
-/

namespace LiquidTemplate

namespace Markup

open Text

variable {c : Char} {cs ds : List Char}

/-! ### Safety -/

/-- The characters of markup. -/
def marks : List Char :=
  ['&', '<', '>', '"', '\'']

/-- The references that are written for them. -/
def writtenReferences : List String :=
  ["&amp;", "&lt;", "&gt;", "&#34;", "&#39;"]

/-- **Safe text.** It has no angle brackets and no quotes, and all its ampersands begin references. -/
structure Safe (cs : List Char) : Prop where
  plain : ∀ c ∈ ['<', '>', '"', '\''], c ∉ cs
  references : ∀ before rest, cs = before ++ '&' :: rest →
    ∃ r ∈ writtenReferences, r.toList <+: '&' :: rest

theorem escapeChar_of_not_mem (h : c ∉ marks) : escapeChar c = [c] := by
  simp only [marks, List.mem_cons, List.not_mem_nil, or_false, not_or] at h
  obtain ⟨hamp, hlt, hgt, hdouble, hsingle⟩ := h
  rw [escapeChar, if_neg hamp, if_neg hlt, if_neg hgt, if_neg hdouble, if_neg hsingle]

theorem escapeChar_of_mem (h : c ∈ marks) :
    ∃ r ∈ writtenReferences, escapeChar c = r.toList := by
  simp only [marks, List.mem_cons, List.not_mem_nil, or_false] at h
  rcases h with rfl | rfl | rfl | rfl | rfl <;> exact ⟨_, by decide, rfl⟩

theorem safe_nil : Safe [] :=
  ⟨fun _ _ => List.not_mem_nil, fun before rest h => by cases before <;> cases h⟩

/-- **Safe texts in a row** are safe: an ampersand of the first begins a reference within the first. -/
theorem Safe.append (hc : Safe cs) (hd : Safe ds) : Safe (cs ++ ds) := by
  refine ⟨fun c h hmem => ?_, fun before rest h => ?_⟩
  · rcases List.mem_append.1 hmem with hmem | hmem
    · exact hc.plain c h hmem
    · exact hd.plain c h hmem
  · rcases List.append_eq_append_iff.1 h with ⟨more, rfl, hrest⟩ | ⟨inside, hcs, hrest⟩
    · exact hd.references more rest hrest
    · cases inside with
      | nil => exact hd.references [] rest hrest.symm
      | cons a inside =>
        obtain ⟨rfl, rfl⟩ := List.cons.inj hrest
        obtain ⟨r, hr, hstarts⟩ := hc.references before inside hcs
        exact ⟨r, hr, hstarts.trans (List.prefix_append _ _)⟩

/-- A reference is safe, as its only ampersand is the first character. -/
theorem safe_reference {r : String} (hr : r ∈ writtenReferences) : Safe r.toList := by
  obtain ⟨cs, hcs, hplain, hamp⟩ : ∃ cs, r.toList = '&' :: cs ∧
      ['<', '>', '"', '\''].all (· ∉ '&' :: cs) ∧ '&' ∉ cs := by
    simp only [writtenReferences, List.mem_cons, List.not_mem_nil, or_false] at hr
    rcases hr with rfl | rfl | rfl | rfl | rfl <;> exact ⟨_, rfl, by decide, by decide⟩
  refine ⟨fun c hc => ?_, fun before rest h => ⟨r, hr, ?_⟩⟩
  · rw [hcs]
    exact of_decide_eq_true (List.all_eq_true.1 hplain c hc)
  rw [hcs] at h
  cases before with
  | nil => exact hcs ▸ h ▸ List.prefix_rfl
  | cons a before =>
    obtain ⟨-, rfl⟩ := List.cons.inj h
    exact absurd (List.mem_append_right before List.mem_cons_self) hamp

theorem safe_singleton (hc : c ∉ marks) : Safe [c] := by
  refine ⟨fun d hd hmem => ?_, fun before rest h => ?_⟩
  · obtain rfl := List.mem_singleton.1 hmem
    exact hc (List.mem_cons_of_mem _ hd)
  · have hmem : '&' ∈ [c] := h ▸ List.mem_append_right before List.mem_cons_self
    obtain rfl := List.mem_singleton.1 hmem
    exact absurd List.mem_cons_self hc

/-- **What is escaped is safe.** -/
theorem safe_escape (cs : List Char) : Safe (escape cs) := by
  induction cs with
  | nil => exact safe_nil
  | cons c cs ih =>
    rw [escape, List.flatMap_cons]
    by_cases hc : c ∈ marks
    · obtain ⟨r, hr, hescape⟩ := escapeChar_of_mem hc
      exact hescape ▸ (safe_reference hr).append ih
    · exact escapeChar_of_not_mem hc ▸ (safe_singleton hc).append ih

/-! ### Reading references -/

/-- What stands for a character when the references of some others have been read. -/
def escapeBut (read : List Char) (c : Char) : List Char :=
  if c ∈ read then [c] else escapeChar c

/-- **References are told apart**: none begins in what is written for another character. -/
theorem inert_escapeChar {r : String × Char} (hr : r ∈ references) (hc : c ≠ r.2) :
    Inert r.1.toList (escapeChar c) := by
  simp only [references, List.mem_cons, List.not_mem_nil, or_false] at hr
  by_cases hmark : c ∈ marks
  · simp only [marks, List.mem_cons, List.not_mem_nil, or_false] at hmark
    rcases hr with rfl | rfl | rfl | rfl | rfl | rfl | rfl <;>
      rcases hmark with rfl | rfl | rfl | rfl | rfl <;>
        simp [Inert, after?, escapeChar] at hc ⊢
  · have hamp : '&' ≠ c := fun h => hmark (h ▸ List.mem_cons_self)
    rw [escapeChar_of_not_mem hmark]
    rcases hr with rfl | rfl | rfl | rfl | rfl | rfl | rfl <;> exact inert_singleton hamp

/-- **One kind of reference is read**: either it is the one that is written for its character, or no
such references are left. Those of the ampersand are still there. -/
theorem replace_escapeBut {r : String × Char} {read : List Char} (hr : r ∈ references)
    (hamp : '&' ∉ read) (h : escapeChar r.2 = r.1.toList ∨ r.2 ∈ read) (cs : List Char) :
    replace r.1.toList [r.2] (cs.flatMap (escapeBut read)) =
      cs.flatMap (escapeBut (r.2 :: read)) := by
  obtain ⟨n, hn⟩ : ∃ n, r.1.toList = '&' :: n := by
    simp only [references, List.mem_cons, List.not_mem_nil, or_false] at hr
    rcases hr with rfl | rfl | rfl | rfl | rfl | rfl | rfl <;> exact ⟨_, rfl⟩
  refine replace_flatMap (hn ▸ List.cons_ne_nil _ _) cs fun c => ?_
  by_cases hread : c ∈ read
  · have hne : '&' ≠ c := fun h => hamp (h ▸ hread)
    rw [escapeBut, if_pos hread, escapeBut, if_pos (List.mem_cons_of_mem _ hread), hn]
    exact .inr ⟨inert_singleton hne, rfl⟩
  · rw [escapeBut, if_neg hread]
    by_cases hc : c = r.2
    · subst hc
      rw [escapeBut, if_pos List.mem_cons_self]
      exact .inl ⟨h.resolve_right hread, rfl⟩
    · rw [escapeBut, if_neg (fun hmem => (List.mem_cons.1 hmem).elim hc hread)]
      exact .inr ⟨inert_escapeChar hr hc, rfl⟩

/-- When the references of all characters of markup have been read, the text is there. -/
theorem flatMap_escapeBut {read : List Char} (h : ∀ c ∈ marks, c ∈ read) (cs : List Char) :
    cs.flatMap (escapeBut read) = cs := by
  induction cs with
  | nil => rfl
  | cons c cs ih =>
    have hc : escapeBut read c = [c] := by
      rw [escapeBut]
      split
      · rfl
      · next hread => exact escapeChar_of_not_mem (mt (h c) hread)
    rw [List.flatMap_cons, ih, hc, List.singleton_append]

/-- **Unescaping undoes escaping.** -/
theorem unescape_escape (cs : List Char) : unescape (escape cs) = cs := by
  have hnone : escape cs = cs.flatMap (escapeBut []) := rfl
  rw [hnone, unescape, references]
  simp only [List.foldl_cons, List.foldl_nil]
  rw [replace_escapeBut (r := ("&lt;", '<')) (by decide) (by decide) (.inl rfl),
    replace_escapeBut (r := ("&gt;", '>')) (by decide) (by decide) (.inl rfl),
    replace_escapeBut (r := ("&#34;", '"')) (by decide) (by decide) (.inl rfl),
    replace_escapeBut (r := ("&quot;", '"')) (by decide) (by decide) (.inr (by decide)),
    replace_escapeBut (r := ("&#39;", '\'')) (by decide) (by decide) (.inl rfl),
    replace_escapeBut (r := ("&#x27;", '\'')) (by decide) (by decide) (.inr (by decide)),
    replace_escapeBut (r := ("&amp;", '&')) (by decide) (by decide) (.inl rfl)]
  exact flatMap_escapeBut (by simp [marks]) cs

end Markup

/-! ### The filters -/

namespace Filter

variable {host : Host} {history : History} {args : FilterArguments} {s : String}

theorem apply_escape : escape.apply host history (.str s) args =
    .ok (.ofChars (Markup.escape s.toList), history) := by
  rw [apply_of_ne_map (by decide)]
  rfl

theorem apply_escapeOnce : escapeOnce.apply host history (.str s) args =
    .ok (.ofChars (Markup.escape (Markup.unescape s.toList)), history) := by
  rw [apply_of_ne_map (by decide)]
  rfl

end Filter

/-- **Escaping** is safe and is undone by unescaping, so that `escape_once` changes nothing in what has
been escaped before by either filter. -/
theorem escaping (host : Host) (history : History) (args more : FilterArguments) (s : String) :
    ∃ escaped once : String,
      Filter.escape.apply host history (.str s) args = .ok (.str escaped, history) ∧
      Markup.Safe escaped.toList ∧
      Markup.unescape escaped.toList = s.toList ∧
      Filter.escapeOnce.apply host history (.str escaped) more = .ok (.str escaped, history) ∧
      Filter.escapeOnce.apply host history (.str s) args = .ok (.str once, history) ∧
      Markup.Safe once.toList ∧
      Filter.escapeOnce.apply host history (.str once) more = .ok (.str once, history) := by
  -- what `escape` makes of any text stays as it is
  have honce (cs : List Char) :
      Filter.escapeOnce.apply host history (.ofChars (Markup.escape cs)) more =
        .ok (.ofChars (Markup.escape cs), history) := by
    rw [Value.ofChars, Filter.apply_escapeOnce, String.toList_ofList, Markup.unescape_escape,
      Value.ofChars]
  have hsafe (cs : List Char) : Markup.Safe (String.ofList (Markup.escape cs)).toList := by
    rw [String.toList_ofList]
    exact Markup.safe_escape cs
  refine ⟨String.ofList (Markup.escape s.toList),
    String.ofList (Markup.escape (Markup.unescape s.toList)), Filter.apply_escape, hsafe _, ?_,
    honce _, Filter.apply_escapeOnce, hsafe _, honce _⟩
  rw [String.toList_ofList, Markup.unescape_escape]

end LiquidTemplate
