import LiquidTemplate.Text.Search

/-!
# Markup

* `Markup.escape`, `Markup.unescape`: characters of markup and their references.
* `Markup.strip`: a text without its tags, comments, scripts and styles.
-/

namespace LiquidTemplate.Markup

/-- The reference for a character of markup; any other stands for itself. -/
def escapeChar (c : Char) : List Char :=
  if c = '&' then "&amp;".toList
  else if c = '<' then "&lt;".toList
  else if c = '>' then "&gt;".toList
  else if c = '"' then "&#34;".toList
  else if c = '\'' then "&#39;".toList
  else [c]

/-- **Escaped text.** -/
def escape (cs : List Char) : List Char :=
  cs.flatMap escapeChar

/-- The references that are read, each with its character. That of the ampersand comes last, so that
no reference is made up by reading another one. -/
def references : List (String × Char) :=
  [("&lt;", '<'), ("&gt;", '>'), ("&#34;", '"'), ("&quot;", '"'), ("&#39;", '\''), ("&#x27;", '\''),
    ("&amp;", '&')]

/-- **Text without references**: each kind of them is replaced in turn. -/
def unescape (cs : List Char) : List Char :=
  references.foldl (fun cs r => Text.replace r.1.toList [r.2] cs) cs

/-! ### Stripping -/

/-- A character without its case; the long s counts as an s. -/
def foldCase (c : Char) : Char :=
  if c = 'ſ' then 's' else c.toLower

/-- **Blocks** that are dropped with all that is in them, by their beginnings and ends. -/
def blocks : List (String × String) :=
  [("<script", "</script>"), ("<!--", "-->"), ("<style", "</style>")]

/-- What follows the first end of a block that begins here. -/
def afterBlock? (opening closing : String) (cs : List Char) : Option (List Char) :=
  (Text.after? opening.toList (cs.map foldCase)).bind fun inner =>
    (Text.cut? closing.toList inner).map fun (_, rest) => cs.drop (cs.length - rest.length)

/-- What follows a block of any kind that begins here. -/
def afterAnyBlock? (cs : List Char) : Option (List Char) :=
  blocks.findSome? fun b => afterBlock? b.1 b.2 cs

/-- A block takes at least one character. -/
theorem length_afterBlock?_lt {opening closing : String} {cs rest : List Char}
    (hne : opening.toList ≠ []) (h : afterBlock? opening closing cs = some rest) :
    rest.length < cs.length := by
  unfold afterBlock? at h
  obtain ⟨inner, hi, h⟩ := Option.bind_eq_some_iff.1 h
  obtain ⟨⟨before, behind⟩, hc, rfl⟩ := Option.map_eq_some_iff.1 h
  have hl := congrArg List.length (Text.after?_eq_some_iff.1 hi)
  have hr := congrArg List.length (Text.cut?_eq hc)
  have hp := List.length_pos_iff.2 hne
  simp only [List.length_map, List.length_append] at hl hr
  simp only [List.length_drop]
  omega

theorem length_afterAnyBlock?_lt {cs rest : List Char} (h : afterAnyBlock? cs = some rest) :
    rest.length < cs.length := by
  obtain ⟨b, hb, h⟩ := List.exists_of_findSome?_eq_some h
  refine length_afterBlock?_lt ?_ h
  intro he
  revert hb
  have : b.1 = "" := by simpa using he
  simp only [blocks, List.mem_cons, List.not_mem_nil, or_false]
  rintro (rfl | rfl | rfl) <;> simp at this

/-- The text without its blocks. -/
def stripBlocks : List Char → List Char
  | [] => []
  | c :: cs =>
    match _h : if c = '<' then afterAnyBlock? (c :: cs) else none with
    | some rest => stripBlocks rest
    | none => c :: stripBlocks cs
termination_by cs => cs.length
decreasing_by
  · split at _h
    · exact length_afterAnyBlock?_lt _h
    · simp at _h
  · simp

/-- The text without its tags. -/
def stripTags : List Char → List Char
  | [] => []
  | c :: cs =>
    match _h : if c = '<' then Text.cut? ['>'] cs else none with
    | some (_, rest) => stripTags rest
    | none => c :: stripTags cs
termination_by cs => cs.length
decreasing_by
  · split at _h
    · have := Text.length_of_cut? (by simp) _h
      simp only [List.length_cons]
      omega
    · simp at _h
  · simp

/-- **Text without markup.** -/
def strip (cs : List Char) : List Char :=
  stripTags (stripBlocks cs)

end LiquidTemplate.Markup
