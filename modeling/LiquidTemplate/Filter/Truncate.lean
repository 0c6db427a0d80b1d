import LiquidTemplate.Number.Word
import LiquidTemplate.Text.Blank
import LiquidTemplate.Text.Search

/-!
# Truncated texts

* `Text.truncate`: a text that is cut after a number of characters.
* `Text.truncateWords`: a text that is cut after a number of words.
-/

namespace LiquidTemplate.Text

/-- **Truncation.** A text that is more than `leeway` characters too long is cut so that it ends with
`ending` and has `length` characters, as far as there is room for that. -/
def truncate (length leeway : Nat) (ending cs : List Char) : List Char :=
  if cs.length ≤ (Number.overflowingSizeAdd length leeway).1 then cs
  else cs.take (length - ending.length) ++ ending

/-- **Truncation after words.** A text of more than `count` words becomes that many words with single
spaces, and `ending`. -/
def truncateWords (count : Nat) (ending cs : List Char) : List Char :=
  if (words cs).length ≤ count then cs else join [' '] ((words cs).take count) ++ ending

end LiquidTemplate.Text
