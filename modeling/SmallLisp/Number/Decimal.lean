import SmallLisp.Number.Binary64
import SmallLisp.Text.CharClass

/-! Decimal text of floating point numbers. A number is written with the fewest digits
that read back as it, and the nearest such digits; text is read as the number nearest to
what it says. -/
namespace SmallLisp

/-- The number `digits * 10 ^ exponent`. -/
structure Decimal where
  digits : Nat
  exponent : Int
  deriving DecidableEq, Repr

namespace Decimal

/-- A power of ten as numerator and denominator. -/
def power (e : Int) : Nat × Nat :=
  match e with
  | .ofNat n => (Nat.pow 10 n, 1)
  | .negSucc n => (1, Nat.pow 10 (n + 1))

def toBinary64 (negative : Bool) (d : Decimal) : Binary64 :=
  .ofDecimal negative d.digits d.exponent

/-- The multiples of `10 ^ e` on either side of the magnitude, the nearer one first; of
two equally near the even one. -/
def neighbours (units : Nat) (e : Int) : List Decimal :=
  let (num, den) := power e
  let below := units * den / (num * Binary64.one)
  let near := Binary64.nearest (units * den) (num * Binary64.one)
  let far := if near = below then below + 1 else below
  [⟨near, e⟩, ⟨far, e⟩]

def readsBack (units : Nat) (d : Decimal) : Bool :=
  d.toBinary64 false = .ofUnits false units

/-- Searches the grids of ever smaller powers of ten. The exact expansion of the
magnitude, which always reads back, ends the search. -/
def search (units : Nat) : Nat → Int → Decimal
  | 0, _ => ⟨units * Nat.pow 5 1074, -1074⟩
  | fuel + 1, e =>
    match (neighbours units e).find? (readsBack units) with
    | some d => d
    | none => search units fuel (e - 1)

/-- A power of ten above `2 ^ (log2 units - 1074)`, or a little more: `0.30103` exceeds
the decimal logarithm of two. -/
def ceiling (units : Nat) : Int := ((units.log2 : Int) - 1073) * 30103 / 100000 + 1

/-- Seventeen digits always suffice, and the first grids may be too coarse. -/
def shortest (units : Nat) : Decimal := search units 24 (ceiling units)

end Decimal

/-- How a decimal is laid out. Between the two magnitudes it is positional, and a whole
number keeps one zero after the point; otherwise the exponent has a sign and at least so
many digits. -/
structure DecimalLayout where
  leastMagnitude : Int
  pastMagnitude : Int
  exponentDigits : Nat

namespace DecimalLayout

def zeros (n : Int) : List Char := List.replicate n.toNat '0'

def positional (digits : List Char) (magnitude : Int) : List Char :=
  let size : Int := digits.length
  if magnitude < 0 then ['0', '.'] ++ zeros (-magnitude - 1) ++ digits
  else if size ≤ magnitude + 1 then digits ++ zeros (magnitude + 1 - size) ++ ['.', '0']
  else
    let whole := (magnitude + 1).toNat
    digits.take whole ++ '.' :: digits.drop whole

def scientific (layout : DecimalLayout) (digits : List Char) (magnitude : Int) : List Char :=
  let fraction :=
    match digits with
    | first :: rest => if rest.isEmpty then [first] else first :: '.' :: rest
    | [] => []
  let sign := if magnitude < 0 then '-' else '+'
  fraction ++ 'e' :: sign ::
    (Nat.toDigits 10 magnitude.natAbs).leftpad layout.exponentDigits '0'

def render (layout : DecimalLayout) (d : Decimal) : List Char :=
  let digits := Nat.toDigits 10 d.digits
  let magnitude := d.exponent + digits.length - 1
  if layout.leastMagnitude ≤ magnitude ∧ magnitude < layout.pastMagnitude then
    positional digits magnitude
  else scientific layout digits magnitude

end DecimalLayout

namespace Binary64

/-- Positional from `0.0001` to below `10 ^ 16`. -/
def layout : DecimalLayout := ⟨-4, 16, 2⟩

def chars : Binary64 → List Char
  | .nan => ['n', 'a', 'n']
  | .infinite s => (if s then ['-'] else []) ++ ['i', 'n', 'f']
  | .finite s n _ =>
    (if s then ['-'] else []) ++
      if n = 0 then ['0', '.', '0'] else layout.render (Decimal.shortest n)

def text (x : Binary64) : String := String.ofList x.chars

/-- Text that is not ASCII may have digits of any numeral system and any blanks; another
character of it becomes one that no number contains. -/
def asciiForm (text : List Char) : List Char :=
  if text.all (·.toNat < 0x80) then text
  else text.map fun c =>
    if c.toNat < 0x7F then c
    else if Text.isBlank c then ' '
    else match Text.decimalValue? c with
      | some v => Char.ofNat ('0'.toNat + v)
      | none => '?'

/-- The blanks allowed around a number. -/
def isPadding (c : Char) : Bool := c = ' ' || ('\t' ≤ c && c ≤ '\r')

def splitSign : List Char → Bool × List Char
  | '-' :: rest => (true, rest)
  | '+' :: rest => (false, rest)
  | rest => (false, rest)

/-- The exponent after the digits, if there is nothing else: nothing at all means zero. -/
def exponent? : List Char → Option Int
  | [] => some 0
  | mark :: rest =>
    let (negative, digits) := splitSign rest
    if (mark = 'e' ∨ mark = 'E') ∧ !digits.isEmpty ∧ digits.all Text.isAsciiDigit then
      some (signed negative (Text.digitsValue digits))
    else none

/-- Digits with at most one point among or around them, at least one digit. -/
def decimal? (text : List Char) : Option Decimal :=
  let (whole, rest) := text.span Text.isAsciiDigit
  let (fraction, rest) :=
    match rest with
    | '.' :: rest => rest.span Text.isAsciiDigit
    | rest => ([], rest)
  if whole.isEmpty && fraction.isEmpty then none
  else (exponent? rest).map fun e =>
    ⟨Text.digitsValue (whole ++ fraction), e - fraction.length⟩

/-- Rounds a decimal whose exponent may be too large to raise ten to. -/
def ofWideDecimal (negative : Bool) (d : Decimal) : Binary64 :=
  if d.digits = 0 then zero negative
  else
    let magnitude := d.exponent + (Nat.toDigits 10 d.digits).length
    if 400 < magnitude then .infinite negative
    else if magnitude < -400 then zero negative
    else d.toBinary64 negative

/-- The number that a text writes: a decimal, or the name of infinity or of
not-a-number, with a sign or none. -/
def ofText? (text : List Char) : Option Binary64 :=
  let (negative, body) := splitSign (Text.trim isPadding (asciiForm text))
  let name := String.ofList (body.map Char.toLower)
  if name = "inf" ∨ name = "infinity" then some (.infinite negative)
  else if name = "nan" then some .nan
  else (decimal? body).map (ofWideDecimal negative)

end Binary64

end SmallLisp
