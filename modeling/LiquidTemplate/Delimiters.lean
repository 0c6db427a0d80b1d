/-!
# Delimiters

The texts that open and close the tags of a template, and the options for the newlines around them.

* `Delimiters`: the settings; the defaults are those of the common dialect.
* `Opening`: the three kinds of tags.
-/

namespace LiquidTemplate

/-- **Delimiters and newline options.** -/
structure Delimiters where
  blockStart : String := "\x7b%"
  blockEnd : String := "%\x7d"
  variableStart : String := "\x7b\x7b"
  variableEnd : String := "\x7d\x7d"
  commentStart : String := "\x7b#"
  commentEnd : String := "#\x7d"
  /-- Drop the first newline after a block tag. -/
  trimBlocks : Bool := false
  /-- Keep a newline at the end of the template. -/
  keepTrailingNewline : Bool := false
deriving DecidableEq

/-- **Kind of tag** that a delimiter opens. -/
inductive Opening where
  | variable | block | comment
deriving DecidableEq, Repr

/-- The delimiter that opens a kind of tag. -/
def Delimiters.start (d : Delimiters) : Opening → String
  | .variable => d.variableStart
  | .block => d.blockStart
  | .comment => d.commentStart

end LiquidTemplate
