import SmallLisp.Number.Decimal
import SmallLisp.Reader.Error
import SmallLisp.Text.CharClass
import SmallLisp.Value.Basic

/-! The values that single tokens write. An item is a number if it can be one, else one
of three constants, else a symbol; an integer beyond 64 bits is a floating point number. -/
namespace SmallLisp.Atom

/-- The sign and digits of an item that is all digits after at most one sign. -/
def integer? (text : List Char) : Option (Bool × List Char) :=
  let (negative, digits) := Binary64.splitSign text
  if !digits.isEmpty ∧ digits.all Text.isAsciiDigit then some (negative, digits) else none

/-- The greatest integer has as many digits. -/
def integerDigits : Nat := 19

/-- How many digits are counted out, leading zeros included. -/
def digitLimit : Nat := 4300

def ofDigits (negative : Bool) (digits : List Char) : Except ReadError Value :=
  let magnitude := Text.digitsValue digits
  let float := Value.float (.ofWideDecimal negative ⟨magnitude, 0⟩)
  if (digits.dropWhile (· = '0')).length ≤ integerDigits then
    if digitLimit < digits.length then .error (.tooManyDigits digits.length)
    else
      let n := Binary64.signed negative magnitude
      .ok (if Value.InRange n then .int n else float)
  else .ok float

/-- An underscore, though digits could be grouped with it, makes no number. -/
def float? (text : List Char) : Option Binary64 :=
  if text.contains '_' then none else Binary64.ofText? text

def constant? (text : String) : Option Value :=
  if text = "#t" then some (.bool true)
  else if text = "#f" then some (.bool false)
  else if text = "nil" then some .nil
  else none

def ofItem (text : String) : Except ReadError Value :=
  match integer? text.toList with
  | some (negative, digits) => ofDigits negative digits
  | none =>
    match float? text.toList with
    | some x => .ok (.float x)
    | none => .ok ((constant? text).getD (.symbol text))

/-- A backslash stands for the character after it; a last one stands for itself. -/
def resolveEscapes : List Char → List Char
  | '\\' :: c :: rest => c :: resolveEscapes rest
  | c :: rest => c :: resolveEscapes rest
  | [] => []

/-- The text between the quotes, whatever the quotes are. -/
def unescape (raw : String) : String :=
  String.ofList (resolveEscapes (raw.toList.drop 1).dropLast)

end SmallLisp.Atom
