/-!
# Failures of filters

* `FilterError`: why a filter has no result.
* `FilterError.message`: the failure in words.
-/

namespace LiquidTemplate

/-- **Failure of a filter.** -/
inductive FilterError where
  | divisionByZero
  | typeMismatch (expected : String)
  | invalidNumber (text : String)
  | invalidFormat (format : String)
  | missingArgument (filter argument : String)
deriving DecidableEq

/-- The failure in words. -/
def FilterError.message : FilterError → String
  | divisionByZero => "division by zero"
  | typeMismatch expected => "type mismatch: expected " ++ expected
  | invalidNumber text => "invalid number '" ++ text ++ "'"
  | invalidFormat format => "invalid date format '" ++ format ++ "'"
  | missingArgument filter argument =>
    "filter '" ++ filter ++ "' requires argument '" ++ argument ++ "'"

end LiquidTemplate
