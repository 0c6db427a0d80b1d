import LiquidTemplate.Text.Property

/-!
# Quoted text

The form in which dumps and messages show a string: between double quotes, with characters that
would not be visible written as escapes.

* `escapeChar`: the escape of one character.
* `quoted`: the quoted form of a text.
-/

namespace LiquidTemplate.Text

/-- The escape of a character by its code point in lower-case hexadecimal digits. -/
def escapeByCode (c : Char) : List Char :=
  "\\u\x7b".toList ++ Nat.toDigits 16 c.toNat ++ ['\x7d']

/-- **Escape of a character.** Quotes, backslashes and the common controls have short escapes;
extending marks and unprintable characters are shown by their code point. -/
def escapeChar (c : Char) : List Char :=
  if c = '\x00' then ['\\', '0']
  else if c = '\t' then ['\\', 't']
  else if c = '\r' then ['\\', 'r']
  else if c = '\n' then ['\\', 'n']
  else if c = '\\' then ['\\', '\\']
  else if c = '"' then ['\\', '"']
  else if isExtendingMark c || !isPrintable c then escapeByCode c
  else [c]

/-- **Quoted form** of a text. -/
def quoted (s : String) : String :=
  String.ofList ('"' :: s.toList.flatMap escapeChar ++ ['"'])

end LiquidTemplate.Text
