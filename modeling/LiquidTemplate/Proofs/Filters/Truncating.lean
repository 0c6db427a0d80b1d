import LiquidTemplate.Proofs.Filters.Replacing
import LiquidTemplate.Proofs.Filters.Slices

/-!
# Truncated texts

A text that is cut after characters has as many of them as it should have, or it is the ending alone
where there is no room for more. In both cases it stays as it is when it is truncated again. A text that
is cut after words has as many words as it should have, since an ending without blanks belongs to the
last of them.

* `Text.IsTruncated`, `Text.IsTruncatedToWords`: the results of both truncations.
* `Text.truncate_truncate`: truncating again changes nothing.
* `Text.length_words_append`: words that are joined by spaces are read again, also with an ending.
* `truncation`: the filters `truncate` and `truncatewords`.
-/

namespace LiquidTemplate

namespace Text

variable {ending cs w word out : List Char}

/-! ### Characters -/

/-- **Truncation.** A text of at most `length + leeway` characters stays as it is. Of any other one as
many characters are kept as there is room for before the ending. -/
def IsTruncated (length leeway : Int) (ending cs out : List Char) : Prop :=
  if cs.length ≤ length + leeway then out = cs
  else ∃ front, IsPart 0 (max (length - ending.length) 0) cs front ∧ out = front ++ ending ∧
    out.length = max length ending.length

section Characters

variable {length leeway : Nat}
  (hsum : Number.overflowingSizeAdd length leeway = (length + leeway, false))

include hsum

theorem truncate_of_le (h : cs.length ≤ length + leeway) : truncate length leeway ending cs = cs := by
  rw [truncate, hsum, if_pos h]

theorem truncate_of_lt (h : length + leeway < cs.length) :
    truncate length leeway ending cs = cs.take (length - ending.length) ++ ending := by
  rw [truncate, hsum, if_neg (Nat.not_le.2 h)]

/-- **A text that is cut** has the length that was asked for, or that of the ending. -/
theorem length_truncate_of_lt (h : length + leeway < cs.length) :
    (truncate length leeway ending cs).length = max length ending.length := by
  rw [truncate_of_lt hsum h, List.length_append, List.length_take]
  omega

/-- Without room for anything else a text that is cut is the ending. -/
theorem truncate_of_long_ending (h : length + leeway < cs.length) (hroom : length ≤ ending.length) :
    truncate length leeway ending cs = ending := by
  rw [truncate_of_lt hsum h, Nat.sub_eq_zero_of_le hroom, List.take_zero, List.nil_append]

/-- **Truncating again** changes nothing. -/
theorem truncate_truncate :
    truncate length leeway ending (truncate length leeway ending cs) =
      truncate length leeway ending cs := by
  by_cases hshort : cs.length ≤ length + leeway
  · rw [truncate_of_le hsum hshort, truncate_of_le hsum hshort]
  · have hlong := Nat.not_le.1 hshort
    have hlength : (truncate length leeway ending cs).length = max length ending.length :=
      length_truncate_of_lt hsum hlong
    by_cases hroom : ending.length ≤ length + leeway
    · exact truncate_of_le hsum (by omega)
    · -- the ending is too long itself, and gives way to itself
      have hending := Nat.not_le.1 hroom
      rw [truncate_of_long_ending hsum hlong (by omega),
        truncate_of_long_ending hsum hending (by omega)]

theorem isTruncated_truncate :
    IsTruncated length leeway ending cs (truncate length leeway ending cs) := by
  unfold IsTruncated
  split
  · next hshort => exact truncate_of_le hsum (by omega)
  · next hlong =>
    have hlong : length + leeway < cs.length := by omega
    have hfront : IsPart 0 ((length - ending.length : Nat) : Int) cs _ :=
      isPart_drop_take (Nat.zero_le _) (by omega)
    rw [List.drop_zero] at hfront
    refine ⟨_, ?_, truncate_of_lt hsum hlong, ?_⟩
    · rwa [show max ((length : Int) - ending.length) 0 = (length - ending.length : Nat) by omega]
    · rw [length_truncate_of_lt hsum hlong]
      omega

end Characters

/-! ### Words -/

/-- **Word**: characters that are not blank, at least one. -/
def IsWord (w : List Char) : Prop :=
  w ≠ [] ∧ ∀ c ∈ w, isBlank c = false

theorem IsWord.append (hw : IsWord w) (hending : ∀ c ∈ ending, isBlank c = false) :
    IsWord (w ++ ending) :=
  ⟨List.append_ne_nil_of_left_ne_nil hw.1 ending, fun c hc =>
    (List.mem_append.1 hc).elim (hw.2 c) (hending c)⟩

/-- Characters that are not blank go on with the current word. -/
theorem wordsFrom_append (hw : ∀ c ∈ w, isBlank c = false) (cs : List Char) :
    wordsFrom word (w ++ cs) = wordsFrom (w.reverse ++ word) cs := by
  induction w generalizing word with
  | nil => rfl
  | cons c w ih =>
    have hc : ¬ isBlank c = true := by simp [hw c List.mem_cons_self]
    rw [List.cons_append, wordsFrom, if_neg hc, ih fun d hd => hw d (List.mem_cons_of_mem c hd),
      List.reverse_cons, List.append_assoc, List.singleton_append]

theorem words_append (hw : IsWord w) (cs : List Char) : words (w ++ cs) = wordsFrom w.reverse cs := by
  rw [words, wordsFrom_append hw.2, List.append_nil]

theorem IsWord.isEmpty_reverse (hw : IsWord w) : ¬ w.reverse.isEmpty = true := by
  simpa using hw.1

/-- **A word** is its own only word. -/
theorem words_of_isWord (hw : IsWord w) : words w = [w] := by
  have hwords := words_append hw []
  rwa [List.append_nil, wordsFrom, if_neg hw.isEmpty_reverse, List.reverse_reverse] at hwords

/-- **A space** ends a word. -/
theorem words_append_space (hw : IsWord w) (cs : List Char) :
    words (w ++ ' ' :: cs) = w :: words cs := by
  rw [words_append hw, wordsFrom, if_pos (by decide), if_neg hw.isEmpty_reverse, List.reverse_reverse,
    words]

theorem isWord_of_mem_wordsFrom (hword : ∀ c ∈ word, isBlank c = false) (h : w ∈ wordsFrom word cs) :
    IsWord w := by
  have hreverse {word : List Char} (hne : ¬ word.isEmpty = true)
      (hword : ∀ c ∈ word, isBlank c = false) : IsWord word.reverse :=
    ⟨by simpa using hne, fun c hc => hword c (List.mem_reverse.1 hc)⟩
  fun_induction wordsFrom word cs with
  | case1 => exact absurd h List.not_mem_nil
  | case2 word hne =>
    obtain rfl := List.mem_singleton.1 h
    exact hreverse hne hword
  | case3 word c cs hc hnil ih => exact ih (List.forall_mem_nil _) h
  | case4 word c cs hc hne ih =>
    rcases List.mem_cons.1 h with rfl | h
    · exact hreverse hne hword
    · exact ih (List.forall_mem_nil _) h
  | case5 word c cs hc ih =>
    exact ih (List.forall_mem_cons.2 ⟨Bool.eq_false_iff.2 hc, hword⟩) h

/-- **Words** have a character, and no blanks. -/
theorem isWord_of_mem_words (h : w ∈ words cs) : IsWord w :=
  isWord_of_mem_wordsFrom (List.forall_mem_nil _) h

/-- **Words with spaces between them** are read as those words. What follows the last one without a
blank belongs to it. -/
theorem length_words_append {ws : List (List Char)} (hne : ws ≠ []) (hws : ∀ w ∈ ws, IsWord w)
    (hending : ∀ c ∈ ending, isBlank c = false) :
    (words (join [' '] ws ++ ending)).length = ws.length := by
  induction ws with
  | nil => exact absurd rfl hne
  | cons w ws ih =>
    have hw := hws w List.mem_cons_self
    cases ws with
    | nil => rw [join, words_of_isWord (hw.append hending), List.length_singleton, List.length_singleton]
    | cons w' ws =>
      rw [join_cons [' '] w (List.cons_ne_nil w' ws), List.append_assoc, List.append_assoc,
        List.singleton_append, words_append_space hw, List.length_cons, List.length_cons,
        ih (List.cons_ne_nil w' ws) fun v hv => hws v (List.mem_cons_of_mem w hv)]

/-- **Truncation after words.** A text of at most `count` words stays as it is. Of any other one so many
words are kept, with single spaces, before the ending. -/
def IsTruncatedToWords (count : Int) (ending cs out : List Char) : Prop :=
  if (words cs).length ≤ count then out = cs
  else ∃ front, IsPart 0 count (words cs) front ∧ out = join [' '] front ++ ending

section Words

variable {count : Nat}

theorem truncateWords_of_le (h : (words cs).length ≤ count) : truncateWords count ending cs = cs := by
  rw [truncateWords, if_pos h]

theorem truncateWords_of_lt (h : count < (words cs).length) :
    truncateWords count ending cs = join [' '] ((words cs).take count) ++ ending := by
  rw [truncateWords, if_neg (Nat.not_le.2 h)]

theorem isTruncatedToWords_truncateWords :
    IsTruncatedToWords count ending cs (truncateWords count ending cs) := by
  unfold IsTruncatedToWords
  split
  · next hshort => exact truncateWords_of_le (by omega)
  · next hlong =>
    have hlong : count < (words cs).length := by omega
    have hfront : IsPart (0 : Nat) count (words cs) _ :=
      isPart_drop_take (Nat.zero_le _) (Nat.le_of_lt hlong)
    exact ⟨_, hfront, by rw [List.drop_zero]; exact truncateWords_of_lt hlong⟩

/-- **A text that is cut after words** has as many of them as it should have. -/
theorem length_words_truncateWords (hcount : 0 < count) (hending : ∀ c ∈ ending, isBlank c = false)
    (h : count < (words cs).length) : (words (truncateWords count ending cs)).length = count := by
  have hlength : ((words cs).take count).length = count := List.length_take_of_le (Nat.le_of_lt h)
  have hne : (words cs).take count ≠ [] := List.ne_nil_of_length_pos (by omega)
  rw [truncateWords_of_lt h,
    length_words_append hne (fun w hw => isWord_of_mem_words (List.mem_of_mem_take hw)) hending, hlength]

/-- **Truncating after words again** changes nothing. -/
theorem truncateWords_truncateWords (hcount : 0 < count) (hending : ∀ c ∈ ending, isBlank c = false) :
    truncateWords count ending (truncateWords count ending cs) = truncateWords count ending cs := by
  refine truncateWords_of_le ?_
  by_cases hshort : (words cs).length ≤ count
  · rwa [truncateWords_of_le hshort]
  · exact Nat.le_of_eq (length_words_truncateWords hcount hending (Nat.not_le.1 hshort))

end Words

end Text

/-! ### The filters -/

namespace Filter

variable {host : Host} {history : History} {args : FilterArguments} {length leeway count : Int64}

theorem apply_truncate (value : Value) (hlength : indexOr (args.get? 0 "length") 255 = .ok length)
    (hleeway : indexOr (args.get? 2 "leeway") 5 = .ok leeway) :
    truncate.apply host history value args =
      .ok (.ofChars (Text.truncate length.toInt.toNat leeway.toInt.toNat
        (args.charsOr (host history) 1 "end" "...") (value.chars (host history))), history) := by
  rw [apply_of_ne_map (by decide)]
  simp only [evaluate, hlength, hleeway, bind, Except.bind]
  rfl

theorem apply_truncateWords (value : Value) (hcount : indexOr (args.get? 0 "words") 15 = .ok count) :
    truncateWords.apply host history value args =
      .ok (.ofChars (Text.truncateWords (max count.toInt 1).toNat
        (args.charsOr (host history) 1 "end" "...") (value.chars (host history))), history) := by
  rw [apply_of_ne_map (by decide)]
  simp only [evaluate, hcount, bind, Except.bind]
  rfl

end Filter

/-- **Truncation** leaves short texts as they are, and gives others the length or the number of words
that was asked for, with the ending; an ending that is longer than this is all that is left. Negative
lengths are zero, and there is always a first word. Truncating again changes nothing; if it is done by
words, the ending must have no blanks. The sum of the sizes does not wrap around, and what is kept is a
part of the text. -/
theorem truncation (host : Host) (history : History) (args : FilterArguments) :
    let run (f : Filter) (value : Value) := f.apply host history value args
    let ending := args.charsOr (host history) 1 "end" "..."
    (∀ length leeway : Int64, Filter.indexOr (args.get? 0 "length") 255 = .ok length →
      Filter.indexOr (args.get? 2 "leeway") 5 = .ok leeway →
      (∀ value : Value, ∃ out, run .truncate value = .ok (.ofChars out, history) ∧
        Text.IsTruncated (max length.toInt 0) (max leeway.toInt 0) ending (value.chars (host history))
          out ∧
        run .truncate (.ofChars out) = .ok (.ofChars out, history)) ∧
      (Number.overflowingSizeAdd length.toInt.toNat leeway.toInt.toNat).2 = false) ∧
    ∀ count : Int64, Filter.indexOr (args.get? 0 "words") 15 = .ok count →
      ∀ value : Value, ∃ out, run .truncateWords value = .ok (.ofChars out, history) ∧
        Text.IsTruncatedToWords (max count.toInt 1) ending (value.chars (host history)) out ∧
        ((∀ c ∈ ending, Text.isBlank c = false) →
          (max count.toInt 1 < (Text.words (value.chars (host history))).length →
            (Text.words out).length = max count.toInt 1) ∧
          run .truncateWords (.ofChars out) = .ok (.ofChars out, history)) := by
  intro run ending
  refine ⟨fun length leeway hlength hleeway => ?_, fun count hcount value => ?_⟩
  · have hsum := Number.overflowingSizeAdd_toNat length leeway
    have hrun (value : Value) : run .truncate value = _ := Filter.apply_truncate value hlength hleeway
    refine ⟨fun value => ⟨_, hrun value, ?_, ?_⟩, congrArg Prod.snd hsum⟩
    · rw [← Int.ofNat_toNat, ← Int.ofNat_toNat]
      exact Text.isTruncated_truncate hsum
    · rw [hrun, Value.chars_ofChars, Text.truncate_truncate hsum]
  · have hrun (value : Value) : run .truncateWords value = _ := Filter.apply_truncateWords value hcount
    have hpos : 0 < (max count.toInt 1).toNat := by omega
    have hvalue : ((max count.toInt 1).toNat : Int) = max count.toInt 1 := Int.toNat_of_nonneg (by omega)
    refine ⟨_, hrun value, ?_, fun hending => ⟨fun hlong => ?_, ?_⟩⟩
    · rw [← hvalue]
      exact Text.isTruncatedToWords_truncateWords
    · rw [Text.length_words_truncateWords hpos hending (by omega), hvalue]
    · rw [hrun, Value.chars_ofChars, Text.truncateWords_truncateWords hpos hending]

/-- A text of characters that take several bytes each, an ending that is longer than the text may be,
and words with two blanks between them. -/
theorem truncation_long_ending :
    let host : Host := fun _ => ⟨fun _ _ => none, fun _ _ => none, fun _ => ""⟩
    let args : FilterArguments :=
      { positional := [.int 2, .str "→→→→"], named := [("leeway", .int (-1))] }
    let ending := args.charsOr (host []) 1 "end" "..."
    Filter.indexOr (args.get? 0 "length") 255 = .ok 2 ∧
      Filter.indexOr (args.get? 2 "leeway") 5 = .ok (-1) ∧
      Filter.indexOr (args.get? 0 "words") 15 = .ok 2 ∧ (∀ c ∈ ending, Text.isBlank c = false) ∧
      Filter.truncate.apply host [] (.str "äöü") args = .ok (.str "→→→→", []) ∧
      Filter.truncate.apply host [] (.str "→→→→") args = .ok (.str "→→→→", []) ∧
      Filter.truncateWords.apply host [] (.str "a  b c") args = .ok (.str "a b→→→→", []) ∧
      Filter.truncateWords.apply host [] (.str "a b→→→→") args = .ok (.str "a b→→→→", []) := by
  intro host args ending
  have hending : ∀ c ∈ "→→→→".toList, Text.isBlank c = false := by simp [Text.isBlank]
  have hlength : Filter.indexOr (args.get? 0 "length") 255 = .ok 2 := rfl
  have hleeway : Filter.indexOr (args.get? 2 "leeway") 5 = .ok (-1) := rfl
  have hcount : Filter.indexOr (args.get? 0 "words") 15 = .ok 2 := rfl
  have hcut : Filter.truncate.apply host [] (.str "äöü") args = .ok (.str "→→→→", []) := by
    have htext : Text.truncate (2 : Int64).toInt.toNat (-1 : Int64).toInt.toNat "→→→→".toList
      "äöü".toList = "→→→→".toList := by decide
    rw [Filter.apply_truncate _ hlength hleeway]
    exact congrArg (fun cs => Except.ok (Value.ofChars cs, [])) htext
  have hwords : Filter.truncateWords.apply host [] (.str "a  b c") args =
      .ok (.str "a b→→→→", []) := by
    have htext : Text.truncateWords (max (2 : Int64).toInt 1).toNat "→→→→".toList "a  b c".toList =
      "a b→→→→".toList := by decide
    rw [Filter.apply_truncateWords _ hcount]
    exact congrArg (fun cs => Except.ok (Value.ofChars cs, [])) htext
  obtain ⟨htruncate, htruncateWords⟩ := truncation host [] args
  obtain ⟨out, hout, -, hagain⟩ := (htruncate 2 (-1) rfl rfl).1 (.str "äöü")
  obtain ⟨kept, hkept, -, hmore⟩ := htruncateWords 2 rfl (.str "a  b c")
  have houtEq : Value.ofChars out = .str "→→→→" :=
    congrArg Prod.fst (Except.ok.inj (hout.symm.trans hcut))
  have hkeptEq : Value.ofChars kept = .str "a b→→→→" :=
    congrArg Prod.fst (Except.ok.inj (hkept.symm.trans hwords))
  refine ⟨rfl, rfl, rfl, hending, hcut, ?_, hwords, ?_⟩
  · rwa [houtEq] at hagain
  · have hagainWords := (hmore hending).2
    rwa [hkeptEq] at hagainWords

end LiquidTemplate
