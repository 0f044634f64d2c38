/-! What can be wrong with a source text. -/
namespace SmallLisp

inductive ReadError where
  | emptyExpression
  | mismatchedParens
  | erroneousToken (text : String)
  | tooManyDigits (count : Nat)
  | tooDeep
  deriving DecidableEq, Repr

def recursionMessage : String := "maximum recursion depth exceeded"

def ReadError.message : ReadError → String
  | .emptyExpression => "empty expression"
  | .mismatchedParens => "mismatched parentheses"
  | .erroneousToken text => "encountered erroneous '" ++ text ++ "'"
  | .tooManyDigits count =>
    "Exceeds the limit (4300 digits) for integer string conversion: value has " ++
      toString count ++
      " digits; use sys.set_int_max_str_digits() to increase the limit"
  | .tooDeep => recursionMessage

end SmallLisp
