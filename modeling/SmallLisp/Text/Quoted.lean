import SmallLisp.Text.Printable

/-! Text between quotation marks, as diagnostics show it. The mark is an apostrophe
unless the text has one and has no double quote; what cannot be printed is escaped. -/
namespace SmallLisp.Text.Quoted

def mark (text : List Char) : Char :=
  if text.contains '\'' && !text.contains '"' then '"' else '\''

def hex (width : Nat) (n : Nat) : List Char :=
  (Nat.toDigits 16 n).leftpad width '0'

/-- The shortest of the three numeric escapes that holds the code point. -/
def numeric (code : Nat) : List Char :=
  if code < 0x100 then '\\' :: 'x' :: hex 2 code
  else if code < 0x10000 then '\\' :: 'u' :: hex 4 code
  else '\\' :: 'U' :: hex 8 code

def escape (quote c : Char) : List Char :=
  if c = quote ∨ c = '\\' then ['\\', c]
  else if c = '\n' then ['\\', 'n']
  else if c = '\r' then ['\\', 'r']
  else if c = '\t' then ['\\', 't']
  else if isPrintable c then [c]
  else numeric c.toNat

def encode (text : List Char) : List Char :=
  let quote := mark text
  quote :: text.flatMap (escape quote) ++ [quote]

end SmallLisp.Text.Quoted

namespace SmallLisp.Text

def quoted (text : String) : String := String.ofList (Quoted.encode text.toList)

end SmallLisp.Text
