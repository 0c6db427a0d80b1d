/-!
# Characters of a text

Texts are read as lists of characters; positions in them are counted in bytes of their UTF-8 form.

* `byteSize`: the number of bytes of a list of characters.
* `newlines`: the number of line ends in it.
* `after?`: what follows a given beginning.
* `byteSize_append`, `newlines_append`: both counts add up over a concatenation.
* `byteSize_toList`: the byte size is that of the string.
* `after?_eq_some_iff`, `after?_eq_none_iff`: `after?` removes exactly the given beginning.
-/

namespace LiquidTemplate.Text

/-- **Byte size.** The length of the UTF-8 form of `cs`. -/
def byteSize : List Char → Nat
  | [] => 0
  | c :: cs => c.utf8Size + byteSize cs

/-- **Newlines.** How many line ends `cs` holds. -/
def newlines (cs : List Char) : Nat :=
  cs.count '\n'

/-- **What follows a beginning.** The rest of `cs` after `start`, if `cs` begins with it. -/
def after? : (start cs : List Char) → Option (List Char)
  | [], cs => some cs
  | _ :: _, [] => none
  | s :: start, c :: cs => if s = c then after? start cs else none

@[simp] theorem byteSize_nil : byteSize [] = 0 := rfl

@[simp] theorem byteSize_cons (c : Char) (cs : List Char) :
    byteSize (c :: cs) = c.utf8Size + byteSize cs := rfl

@[simp] theorem byteSize_append (cs ds : List Char) :
    byteSize (cs ++ ds) = byteSize cs + byteSize ds := by
  induction cs with
  | nil => simp
  | cons c cs ih => simp [ih, Nat.add_assoc]

theorem utf8ByteSize_ofList (cs : List Char) : (String.ofList cs).utf8ByteSize = byteSize cs := by
  induction cs with
  | nil => rfl
  | cons c cs ih =>
    rw [String.ofList_cons, String.utf8ByteSize_append, String.utf8ByteSize_singleton, ih,
      byteSize_cons]

theorem byteSize_toList (text : String) : byteSize text.toList = text.utf8ByteSize := by
  rw [← utf8ByteSize_ofList, String.ofList_toList]

@[simp] theorem newlines_nil : newlines [] = 0 := rfl

theorem newlines_cons (c : Char) (cs : List Char) :
    newlines (c :: cs) = newlines cs + if c = '\n' then 1 else 0 := by
  simp only [newlines, List.count_cons, beq_iff_eq]

@[simp] theorem newlines_append (cs ds : List Char) :
    newlines (cs ++ ds) = newlines cs + newlines ds := by
  simp [newlines]

/-- A text takes at least a byte for each character. -/
theorem length_le_byteSize (cs : List Char) : cs.length ≤ byteSize cs := by
  induction cs with
  | nil => simp
  | cons c cs ih =>
    have := c.utf8Size_pos
    simp only [List.length_cons, byteSize_cons]
    omega

@[simp] theorem after?_append (start cs : List Char) : after? start (start ++ cs) = some cs := by
  induction start with
  | nil => rfl
  | cons s start ih => simp [after?, ih]

theorem after?_eq_some_iff {start cs rest : List Char} :
    after? start cs = some rest ↔ cs = start ++ rest := by
  constructor
  · intro h
    fun_induction after? start cs with
    | case1 cs => simpa using h
    | case2 => simp at h
    | case3 s start cs ih => simp [ih h]
    | case4 => simp at h
  · rintro rfl
    exact after?_append start rest

theorem after?_eq_none_iff {start cs : List Char} : after? start cs = none ↔ ¬ start <+: cs := by
  constructor
  · rintro hnone ⟨rest, rfl⟩
    rw [after?_append] at hnone
    nomatch hnone
  · intro hno
    cases hafter : after? start cs with
    | none => rfl
    | some rest => exact absurd ⟨rest, (after?_eq_some_iff.1 hafter).symm⟩ hno

end LiquidTemplate.Text
