import LiquidTemplate.Filter
import LiquidTemplate.Text.Search

/-!
# Replacing

Replacement goes through a text from left to right. Where the searched text begins it is replaced as a
whole, and any other character stays. So a replacement splits a text and joins its pieces by something
else. Joining undoes splitting, whatever the text is split at. Splitting undoes joining by a character
that is in none of the pieces.

* `split_join`: splitting undoes joining, if no piece has the separator in it.
* `replace_append_self`, `replace_cons_of_none`: the two steps of a replacement.
* `replace_eq_join`: a replacement joins the pieces between the occurrences.
* `Inert`: a text that is gone over without a replacement, whatever follows.
* `replace_flatMap`: a text of blocks, each of them searched for or inert.
* `Filter.apply_split`, `Filter.apply_join`, `Filter.apply_replace`, `Filter.apply_remove`: what the
  filters do to texts.
* `split_join_replace`: how they agree.
-/

namespace LiquidTemplate.Text

variable {needle replacement cs rest before block : List Char} {c : Char}

/-! ### Splitting -/

theorem split_of_none (h : cut? needle cs = none) : split needle cs = [cs] := by
  rw [split]
  split
  · next hcut => rw [h] at hcut; cases hcut
  · rfl

theorem split_of_cut (hn : needle ≠ []) (h : cut? needle cs = some (before, rest)) :
    split needle cs = before :: split needle rest := by
  rw [split]
  split
  · next hcut =>
    rw [h] at hcut
    obtain ⟨rfl, rfl⟩ := Prod.mk.inj (Option.some.inj hcut)
    rw [dif_neg hn]
  · next hcut => rw [h] at hcut; cases hcut

theorem cut?_cons_of_none (h : after? needle (c :: cs) = none) :
    cut? needle (c :: cs) =
      (cut? needle cs).map fun (before, rest) => (c :: before, rest) := by
  rw [cut?, h]

theorem cut?_of_not_mem {n : Char} (h : n ∉ cs) : cut? [n] cs = none := by
  induction cs with
  | nil => rfl
  | cons c cs ih =>
    obtain ⟨hc, hcs⟩ := not_or.1 (mt List.mem_cons.2 h)
    have hafter : after? [n] (c :: cs) = none := if_neg hc
    rw [cut?_cons_of_none hafter, ih hcs, Option.map_none]

theorem cut?_append_self (hn : needle ≠ []) (rest : List Char) :
    cut? needle (needle ++ rest) = some ([], rest) := by
  obtain ⟨c, cs, rfl⟩ := List.exists_cons_of_ne_nil hn
  have h : after? (c :: cs) (c :: (cs ++ rest)) = some rest := after?_append (c :: cs) rest
  rw [List.cons_append, cut?, h]

/-- **The first occurrence of a character** is behind a text without it. -/
theorem cut?_append_of_not_mem {n : Char} (h : n ∉ before) (rest : List Char) :
    cut? [n] (before ++ n :: rest) = some (before, rest) := by
  induction before with
  | nil => exact cut?_append_self (List.cons_ne_nil n []) rest
  | cons c cs ih =>
    obtain ⟨hc, hcs⟩ := not_or.1 (mt List.mem_cons.2 h)
    have hafter : after? [n] (c :: (cs ++ n :: rest)) = none := if_neg hc
    rw [List.cons_append, cut?_cons_of_none hafter, ih hcs, Option.map_some]

theorem join_cons {pieces : List (List Char)} (separator piece : List Char) (h : pieces ≠ []) :
    join separator (piece :: pieces) = piece ++ separator ++ join separator pieces := by
  rw [join]
  exact h

/-- **Splitting undoes joining** by a character that is in none of the pieces. -/
theorem split_join {pieces : List (List Char)} (hne : pieces ≠ []) (h : ∀ piece ∈ pieces, c ∉ piece) :
    split [c] (join [c] pieces) = pieces := by
  induction pieces with
  | nil => exact absurd rfl hne
  | cons piece pieces ih =>
    obtain ⟨hpiece, hpieces⟩ := List.forall_mem_cons.1 h
    by_cases hlast : pieces = []
    · rw [hlast, join, split_of_none (cut?_of_not_mem hpiece)]
    · have hcut := cut?_append_of_not_mem hpiece (join [c] pieces)
      rw [join_cons [c] piece hlast, List.append_assoc, List.singleton_append,
        split_of_cut (List.cons_ne_nil c []) hcut, ih hlast hpieces]

/-! ### Steps of a replacement -/

theorem replace_of_none (hn : needle ≠ []) (h : cut? needle cs = none) :
    replace needle replacement cs = cs := by
  rw [replace, dif_neg hn]
  split
  · next hcut => rw [h] at hcut; cases hcut
  · rfl

/-- **Up to the first occurrence** the text stays. -/
theorem replace_of_cut (hn : needle ≠ []) (h : cut? needle cs = some (before, rest)) :
    replace needle replacement cs = before ++ replacement ++ replace needle replacement rest := by
  rw [replace, dif_neg hn]
  split
  · next hcut =>
    rw [h] at hcut
    obtain ⟨rfl, rfl⟩ := Prod.mk.inj (Option.some.inj hcut)
    rfl
  · next hcut => rw [h] at hcut; cases hcut

/-- **A replacement joins the pieces** between the occurrences. -/
theorem replace_eq_join (hn : needle ≠ []) (replacement cs : List Char) :
    replace needle replacement cs = join replacement (split needle cs) := by
  induction cs using split.induct needle with
  | case1 cs before rest hcut hempty => exact absurd hempty hn
  | case2 cs before rest hcut _ ih =>
    rw [replace_of_cut hn hcut, split_of_cut hn hcut, join_cons _ _ (split_ne_nil needle rest), ih]
  | case3 cs hcut => rw [replace_of_none hn hcut, split_of_none hcut, join]

theorem replace_nil (hn : needle ≠ []) : replace needle replacement [] = [] :=
  replace_of_none hn (by rw [cut?, if_neg (by rwa [List.isEmpty_iff])])

/-- **An occurrence** is replaced. -/
theorem replace_append_self (hn : needle ≠ []) (rest : List Char) :
    replace needle replacement (needle ++ rest) =
      replacement ++ replace needle replacement rest := by
  rw [replace_of_cut hn (cut?_append_self hn rest), List.nil_append]

/-- **A character** with which no occurrence begins stays. -/
theorem replace_cons_of_none (hn : needle ≠ []) (h : after? needle (c :: cs) = none) :
    replace needle replacement (c :: cs) = c :: replace needle replacement cs := by
  have hcut := cut?_cons_of_none h
  cases hrest : cut? needle cs with
  | none =>
    rw [hrest] at hcut
    rw [replace_of_none hn hcut, replace_of_none hn hrest]
  | some parts =>
    rw [hrest] at hcut
    rw [replace_of_cut hn hcut, replace_of_cut hn hrest]
    rfl

/-! ### Blocks -/

/-- **Inert text**: no occurrence of `needle` begins in it, whatever follows. -/
def Inert (needle : List Char) : List Char → Prop
  | [] => True
  | c :: cs => (∀ rest, after? needle (c :: (cs ++ rest)) = none) ∧ Inert needle cs

theorem inert_singleton {n : Char} {ns : List Char} (h : n ≠ c) : Inert (n :: ns) [c] :=
  ⟨fun _ => if_neg h, trivial⟩

theorem replace_append_of_inert (hn : needle ≠ []) (h : Inert needle block) (rest : List Char) :
    replace needle replacement (block ++ rest) = block ++ replace needle replacement rest := by
  induction block with
  | nil => rfl
  | cons c cs ih =>
    rw [List.cons_append, replace_cons_of_none hn (h.1 rest), ih h.2, List.cons_append]

/-- **A text of blocks** is replaced block by block, if each is searched for or inert. -/
theorem replace_flatMap {α : Type} {f g : α → List Char} (hn : needle ≠ []) (xs : List α)
    (h : ∀ x, f x = needle ∧ g x = replacement ∨ Inert needle (f x) ∧ g x = f x) :
    replace needle replacement (xs.flatMap f) = xs.flatMap g := by
  induction xs with
  | nil => exact replace_nil hn
  | cons x xs ih =>
    rw [List.flatMap_cons, List.flatMap_cons]
    rcases h x with ⟨hf, hg⟩ | ⟨hf, hg⟩
    · rw [hf, hg, replace_append_self hn, ih]
    · rw [hg, replace_append_of_inert hn hf, ih]

/-- **Replacing one character** goes character by character. -/
theorem replace_char (n : Char) (replacement cs : List Char) :
    replace [n] replacement cs = cs.flatMap fun c => if c = n then replacement else [c] := by
  have hsingle : replace [n] replacement (cs.flatMap fun c => [c]) =
      cs.flatMap fun c => if c = n then replacement else [c] := by
    refine replace_flatMap (List.cons_ne_nil n []) cs fun c => ?_
    by_cases hc : c = n
    · exact .inl ⟨by rw [hc], if_pos hc⟩
    · exact .inr ⟨inert_singleton (Ne.symm hc), if_neg hc⟩
  rwa [List.flatMap_singleton'] at hsingle

end LiquidTemplate.Text

namespace LiquidTemplate

/-! ### Filters of texts -/

namespace Filter

variable {host : Host} {history : History} {args : FilterArguments} {s p n r : String}

/-- **The pieces of a text** joined by what it was split at, which may be empty. -/
theorem join_pieces (separator cs : List Char) : Text.join separator (pieces separator cs) = cs := by
  rw [pieces]
  split
  · next hempty =>
    rw [List.isEmpty_iff.1 hempty]
    induction cs with
    | nil => rfl
    | cons c cs ih =>
      cases cs with
      | nil => rfl
      | cons d cs =>
        have hmore : (d :: cs).map (fun c => [c]) ≠ [] := List.cons_ne_nil _ _
        rw [List.map_cons, Text.join_cons [] [c] hmore, ih, List.append_nil, List.singleton_append]
  · exact Text.join_split separator cs

theorem pieces_of_ne_nil {separator : List Char} (h : separator ≠ []) (cs : List Char) :
    pieces separator cs = Text.split separator cs :=
  if_neg (mt List.isEmpty_iff.1 h)

theorem apply_split (h : args.get? 0 "separator" = some (.str p)) :
    split.apply host history (.str s) args =
      .ok (.list ((pieces p.toList s.toList).map .ofChars), history) := by
  rw [apply_of_ne_map (by decide)]
  simp only [evaluate, FilterArguments.charsOr_eq h]
  rfl

theorem apply_join (css : List (List Char)) (h : args.get? 0 "separator" = some (.str p)) :
    join.apply host history (.list (css.map .ofChars)) args =
      .ok (.ofChars (Text.join p.toList css), history) := by
  have hchars : (css.map Value.ofChars).map (fun v => v.chars (host history)) = css := by
    rw [List.map_map]
    exact (List.map_congr_left fun cs _ => Value.chars_ofChars _ cs).trans (List.map_id css)
  rw [apply_of_ne_map (by decide)]
  simp only [evaluate, FilterArguments.charsOr_eq h, joinOf, hchars]
  rfl

theorem apply_replace (hn : args.get? 0 "string" = some (.str n))
    (hr : args.get? 1 "replacement" = some (.str r)) :
    replace.apply host history (.str s) args =
      .ok (.ofChars (Text.replace n.toList r.toList s.toList), history) := by
  rw [apply_of_ne_map (by decide)]
  simp only [evaluate, FilterArguments.required_eq hn, FilterArguments.charsOr_eq hr]
  rfl

theorem apply_remove (h : args.get? 0 "string" = some (.str n)) :
    remove.apply host history (.str s) args =
      .ok (.ofChars (Text.replace n.toList [] s.toList), history) := by
  rw [apply_of_ne_map (by decide)]
  simp only [evaluate, FilterArguments.required_eq h]
  rfl

end Filter

/-- **Splitting, joining and replacing agree.** The pieces of a text, joined by what it was split at, are
the text. Texts that are joined by a character in none of them are the pieces of the result. To replace
or to remove what is not empty is to split there and to join with the replacement or with nothing. -/
theorem split_join_replace (host : Host) (history : History) :
    let run (f : Filter) (value : Value) (args : FilterArguments) := f.apply host history value args
    (∀ (s p : String) (args : FilterArguments), args.get? 0 "separator" = some (.str p) →
      ∃ pieces, run .split (.str s) args = .ok (pieces, history) ∧
        run .join pieces args = .ok (.str s, history)) ∧
    (∀ (c : Char) (texts : List String) (args : FilterArguments),
      args.get? 0 "separator" = some (.ofChars [c]) → texts ≠ [] → (∀ t ∈ texts, c ∉ t.toList) →
      ∃ joined, run .join (.list (texts.map .str)) args = .ok (joined, history) ∧
        run .split joined args = .ok (.list (texts.map .str), history)) ∧
    (∀ (s n r : String) (cut glue exchange : FilterArguments), n ≠ "" →
      cut.get? 0 "separator" = some (.str n) → glue.get? 0 "separator" = some (.str r) →
      exchange.get? 0 "string" = some (.str n) → exchange.get? 1 "replacement" = some (.str r) →
      ∃ pieces replaced, run .split (.str s) cut = .ok (pieces, history) ∧
        run .join pieces glue = .ok (replaced, history) ∧
        run .replace (.str s) exchange = .ok (replaced, history)) ∧
    (∀ (s n : String) (cut glue removal : FilterArguments), n ≠ "" →
      cut.get? 0 "separator" = some (.str n) → glue.get? 0 "separator" = some (.str "") →
      removal.get? 0 "string" = some (.str n) →
      ∃ pieces rest, run .split (.str s) cut = .ok (pieces, history) ∧
        run .join pieces glue = .ok (rest, history) ∧
        run .remove (.str s) removal = .ok (rest, history)) := by
  intro run
  have hreplace {n : String} (hn : n ≠ "") (r cs : List Char) :
      Text.join r (Filter.pieces n.toList cs) = Text.replace n.toList r cs := by
    have hne : n.toList ≠ [] := by simpa using hn
    rw [Filter.pieces_of_ne_nil hne, Text.replace_eq_join hne]
  refine ⟨fun s p args h => ?_, fun c texts args h hne htexts => ?_,
    fun s n r cut glue exchange hn hcut hglue hstring hreplacement => ?_,
    fun s n cut glue removal hn hcut hglue hstring => ?_⟩
  · refine ⟨_, Filter.apply_split h, (Filter.apply_join _ h).trans ?_⟩
    rw [Filter.join_pieces, Value.ofChars, String.ofList_toList]
  · have hvalues : texts.map Value.str = (texts.map String.toList).map .ofChars := by
      rw [List.map_map]
      exact List.map_congr_left fun t _ => congrArg Value.str String.ofList_toList.symm
    have hpieces : Filter.pieces [c] (Text.join [c] (texts.map String.toList)) =
        texts.map String.toList := by
      rw [Filter.pieces_of_ne_nil (List.cons_ne_nil c []), Text.split_join]
      · exact mt List.map_eq_nil_iff.1 hne
      · simpa using htexts
    rw [hvalues]
    refine ⟨_, Filter.apply_join _ h, (Filter.apply_split h).trans ?_⟩
    rw [String.toList_ofList, String.toList_ofList, hpieces]
  · refine ⟨_, _, Filter.apply_split hcut, Filter.apply_join _ hglue, ?_⟩
    rw [hreplace hn]
    exact Filter.apply_replace hstring hreplacement
  · refine ⟨_, _, Filter.apply_split hcut, Filter.apply_join _ hglue, ?_⟩
    rw [hreplace hn]
    exact Filter.apply_remove hstring

/-- An occurrence that overlaps another one, and pieces some of which are empty. -/
theorem split_join_replace_overlapping :
    let host : Host := fun _ => ⟨fun _ _ => none, fun _ _ => none, fun _ => ""⟩
    let cut : FilterArguments := { positional := [.str "aa"] }
    let glue : FilterArguments := { named := [("separator", .str "x")] }
    let exchange : FilterArguments := { positional := [.str "aa", .str "x"] }
    let comma : FilterArguments := { positional := [.str ","] }
    let texts := ["", "b", ""]
    "aa" ≠ "" ∧ cut.get? 0 "separator" = some (.str "aa") ∧ glue.get? 0 "separator" = some (.str "x") ∧
      exchange.get? 0 "string" = some (.str "aa") ∧ exchange.get? 1 "replacement" = some (.str "x") ∧
      comma.get? 0 "separator" = some (.ofChars [',']) ∧ texts ≠ [] ∧ (∀ t ∈ texts, ',' ∉ t.toList) ∧
      Filter.split.apply host [] (.str "aaab") cut = .ok (.list [.str "", .str "ab"], []) ∧
      Filter.join.apply host [] (.list [.str "", .str "ab"]) glue = .ok (.str "xab", []) ∧
      Filter.replace.apply host [] (.str "aaab") exchange = .ok (.str "xab", []) ∧
      Filter.join.apply host [] (.list (texts.map .str)) comma = .ok (.str ",b,", []) ∧
      Filter.split.apply host [] (.str ",b,") comma = .ok (.list (texts.map .str), []) := by
  intro host cut glue exchange comma texts
  have hplain : ∀ t ∈ texts, ',' ∉ t.toList := by decide
  have hpieces : Filter.pieces "aa".toList "aaab".toList = [[], ['a', 'b']] := by
    have hfirst : Text.cut? "aa".toList "aaab".toList = some ([], ['a', 'b']) := by decide
    rw [Filter.pieces_of_ne_nil (by decide), Text.split_of_cut (by decide) hfirst,
      Text.split_of_none (by decide)]
  have hsplit : Filter.split.apply host [] (.str "aaab") cut =
      .ok (.list [.str "", .str "ab"], []) := by
    rw [Filter.apply_split rfl, hpieces]
    rfl
  have hglue : glue.get? 0 "separator" = some (.str "x") := rfl
  have hjoin : Filter.join.apply host [] (.list [.str "", .str "ab"]) glue =
      .ok (.str "xab", []) := Filter.apply_join [[], ['a', 'b']] hglue
  have hseparator : comma.get? 0 "separator" = some (.str ",") := rfl
  have hcomma : Filter.join.apply host [] (.list (texts.map .str)) comma = .ok (.str ",b,", []) :=
    Filter.apply_join [[], ['b'], []] hseparator
  have hagree := split_join_replace host []
  obtain ⟨pieces, replaced, hpieces, hreplaced, hreplace⟩ :=
    hagree.2.2.1 "aaab" "aa" "x" cut glue exchange (by decide) rfl rfl rfl rfl
  cases hsplit.symm.trans hpieces
  cases hjoin.symm.trans hreplaced
  obtain ⟨joined, hjoined, htexts⟩ := hagree.2.1 ',' texts comma rfl (by decide) hplain
  cases hcomma.symm.trans hjoined
  exact ⟨by decide, rfl, hglue, rfl, rfl, rfl, by decide, hplain, hsplit, hjoin, hreplace,
    hcomma, htexts⟩

end LiquidTemplate
