import SmallLisp.Text.CharClass

/-! Tokens, and the scanner that finds the next one in a text. Gaps between tokens are
blanks and comments, which reach from a semicolon to the end of the line. -/
namespace SmallLisp

/-- A string keeps its quotes and its escapes as they were written. -/
inductive Token where
  | lparen
  | rparen
  | string (raw : String)
  | item (text : String)
  deriving DecidableEq, Repr

namespace Token

def lexeme : Token → String
  | .lparen => "("
  | .rparen => ")"
  | .string raw => raw
  | .item text => text

/-- The characters that an item is made of. -/
def isItemChar (c : Char) : Bool :=
  !Text.isBlank c && c != '(' && c != ')' && c != '"' && c != ';'

mutual

def skipGap : List Char → List Char
  | [] => []
  | c :: rest =>
    if Text.isBlank c then skipGap rest
    else if c = ';' then skipComment rest
    else c :: rest

def skipComment : List Char → List Char
  | [] => []
  | c :: rest => if c = '\n' then skipGap rest else skipComment rest

end

/-- Reads to the end of a string whose characters so far are `seen`, newest first. A
string that is not closed leaves all its characters, a last lone backslash excepted. -/
def scanString (seen : List Char) : List Char → Except (List Char) (List Char × List Char)
  | [] => .error seen.reverse
  | '"' :: rest => .ok (('"' :: seen).reverse, rest)
  | ['\\'] => .error seen.reverse
  | '\\' :: c :: rest => scanString (c :: '\\' :: seen) rest
  | c :: rest => scanString (c :: seen) rest

end Token

/-- What a text begins with, after its gap. -/
inductive Scan where
  | ended
  | unterminated (text : String)
  | token (t : Token) (rest : List Char)

namespace Token

def scan (text : List Char) : Scan :=
  match skipGap text with
  | [] => .ended
  | '(' :: rest => .token .lparen rest
  | ')' :: rest => .token .rparen rest
  | '"' :: rest =>
    match scanString ['"'] rest with
    | .ok (raw, rest) => .token (.string (String.ofList raw)) rest
    | .error seen => .unterminated (String.ofList seen)
  | c :: rest =>
    .token (.item (String.ofList (c :: rest.takeWhile isItemChar))) (rest.dropWhile isItemChar)

mutual

theorem length_skipGap_le : (text : List Char) → (skipGap text).length ≤ text.length
  | [] => Nat.le_refl _
  | c :: rest => by
    unfold skipGap
    have := length_skipGap_le rest
    have := length_skipComment_le rest
    rw [List.length_cons]
    split
    · omega
    · split
      · omega
      · exact Nat.le_refl _

theorem length_skipComment_le : (text : List Char) → (skipComment text).length ≤ text.length
  | [] => Nat.le_refl _
  | c :: rest => by
    unfold skipComment
    have := length_skipGap_le rest
    have := length_skipComment_le rest
    rw [List.length_cons]
    split <;> omega

end

theorem length_scanString_le (seen text : List Char) {raw rest : List Char}
    (h : scanString seen text = .ok (raw, rest)) : rest.length ≤ text.length := by
  fun_induction scanString seen text <;> simp_all <;> omega

/-- A token takes at least one character. -/
theorem length_lt_of_scan {text rest : List Char} {t : Token}
    (h : scan text = .token t rest) : rest.length < text.length := by
  have shorter := length_skipGap_le text
  unfold scan at h
  split at h
  · cases h
  · next eq => cases h; rw [eq] at shorter; exact shorter
  · next eq => cases h; rw [eq] at shorter; exact shorter
  · next eq =>
    rw [eq, List.length_cons] at shorter
    split at h
    · next string =>
      cases h
      have := length_scanString_le _ _ string
      omega
    · cases h
  · next c after _ _ _ eq =>
    cases h
    rw [eq, List.length_cons] at shorter
    have : after.dropWhile isItemChar <:+ after := List.dropWhile_suffix _
    have := this.length_le
    omega

end Token

end SmallLisp
