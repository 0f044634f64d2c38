import SmallLisp.Reader.TokenStream

/-! Reading a whole text. All of it is scanned first, and must have tokens and as many
closing parentheses as opening ones, even where only its first expression is wanted. -/
namespace SmallLisp

namespace Token

/-- The tokens of a text, and the string that is not closed if there is one. -/
def lex (text : List Char) : List Token × Option String :=
  match _ : scan text with
  | .ended => ([], none)
  | .unterminated raw => ([], some raw)
  | .token t rest =>
    let (tokens, fault) := lex rest
    (t :: tokens, fault)
termination_by text.length
decreasing_by exact length_lt_of_scan (by assumption)

def tokenize (text : String) : Except ReadError (List Token) :=
  match lex text.toList with
  | (_, some raw) => .error (.erroneousToken raw)
  | (tokens, none) =>
    if tokens.isEmpty then .error .emptyExpression
    else if tokens.count .lparen ≠ tokens.count .rparen then .error .mismatchedParens
    else .ok tokens

end Token

/-- The first expression of a text. -/
def read (text : String) : Except ReadError Value := do
  (TokenStream.ofTokens (← Token.tokenize text)).expression.1

/-- Every expression of a text. -/
def readAll (text : String) : Except ReadError (List Value) := do
  match (TokenStream.ofTokens (← Token.tokenize text)).expressions.1 with
  | (values, none) => return values
  | (_, some e) => throw e

end SmallLisp
