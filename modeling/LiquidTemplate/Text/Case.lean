import LiquidTemplate.Text.CaseTables
import LiquidTemplate.Text.Property

/-!
# Case mapping

* `lowerChar`, `upperChar`: the full mapping of one character, which may give several.
* `upperCase`: the mapping of a text, character by character.
* `lowerCase`: likewise, with the final form of sigma at the end of a word.
* `capitalize`: the first character in upper case and all others in lower case.
-/

namespace LiquidTemplate.Text

/-- The character that a run of the table gives for the code point `n`, if the run covers it. -/
def CaseRun.apply? (run : CaseRun) (n : Nat) : Option Char :=
  if run.first ≤ n && n ≤ run.last && (n - run.first) % run.stride == 0 then
    some (Char.ofNat (n + run.shift).toNat)
  else none

/-- Looks a character up in the tables of a mapping; one that stands in none maps to itself. -/
def mapCase (runs : Array CaseRun) (expansions : Array (Nat × List Nat)) (c : Char) : List Char :=
  match expansions.find? fun e => e.1 == c.toNat with
  | some e => e.2.map Char.ofNat
  | none => [(runs.findSome? fun run => run.apply? c.toNat).getD c]

/-- **Lower case** of one character. -/
def lowerChar (c : Char) : List Char :=
  if c.toNat < 128 then [c.toLower] else mapCase lowerRuns lowerExpansions c

/-- **Upper case** of one character. -/
def upperChar (c : Char) : List Char :=
  if c.toNat < 128 then [c.toUpper] else mapCase upperRuns upperExpansions c

/-- **Upper case** of a text. -/
def upperCase (cs : List Char) : List Char :=
  cs.flatMap upperChar

/-- Whether the first character that is not case-ignorable is cased. -/
def startsCased (cs : List Char) : Bool :=
  match cs.dropWhile isCaseIgnorable with
  | c :: _ => isCased c
  | [] => false

/-- Lower case of `cs`, where `before` holds the characters in front of it, last first. A capital
sigma is final when a cased character stands before it and none after it. -/
def lowerCaseAfter (before : List Char) : List Char → List Char
  | [] => []
  | c :: cs =>
    let mapped :=
      if c = 'Σ' then [if startsCased before && !startsCased cs then 'ς' else 'σ'] else lowerChar c
    mapped ++ lowerCaseAfter (c :: before) cs

/-- **Lower case** of a text. -/
def lowerCase (cs : List Char) : List Char :=
  lowerCaseAfter [] cs

/-- **Capitalised text**: the first character in upper case, the rest in lower case. -/
def capitalize : List Char → List Char
  | [] => []
  | c :: cs => upperChar c ++ lowerCase cs

end LiquidTemplate.Text
