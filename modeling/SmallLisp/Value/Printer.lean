import SmallLisp.Number.Decimal
import SmallLisp.Text.Quoted
import SmallLisp.Value.Basic

/-! The written forms of a value. Its text is what the reader reads, its display is what
a person is shown, and its diagnostic form tells apart what the other two do not. A foreign
thing is shown as its own program shows it; only the diagnostic form may hold one, and not
inside a procedure. Lists and procedures may not nest too deep in what is written. -/
namespace SmallLisp

/-- Backslashes and double quotes are the characters that a string's text escapes. -/
def escapeChar (c : Char) : List Char :=
  if c = '\\' ∨ c = '"' then ['\\', c] else [c]

def stringChars (text : List Char) : List Char := '"' :: text.flatMap escapeChar ++ ['"']

def lambdaChars (params : List String) (body : List Char) : List Char :=
  "(lambda (".toList ++ [' '].intercalate (params.map String.toList) ++ [')', ' '] ++ body ++ [')']

namespace Value

mutual

def chars : Value → List Char
  | .symbol name => name.toList
  | .str text => stringChars text.toList
  | .int n => (toString n).toList
  | .float x => x.chars
  | .bool b => ['#', if b then 't' else 'f']
  | .list items => '(' :: [' '].intercalate (charsOfItems items) ++ [')']
  | .proc _ params body _ => lambdaChars params (chars body)
  | .nil => ['n', 'i', 'l']
  | .foreign thing _ => thing.shown.toList

def charsOfItems : List Value → List (List Char)
  | [] => []
  | v :: rest => chars v :: charsOfItems rest

end

def text (v : Value) : String := String.ofList v.chars

mutual

/-- How many texts of lists and procedures stand inside each other in the text, and in the other
written forms. -/
def textDepth : Value → Nat
  | .list items => textDepthOfItems items + 1
  | .proc _ _ body _ => textDepth body + 1
  | _ => 0

def textDepthOfItems : List Value → Nat
  | [] => 0
  | v :: rest => max (textDepth v) (textDepthOfItems rest)

end

/-- There is room to write the value, in whatever form. -/
def Writable (v : Value) : Prop := v.textDepth ≤ depthLimit

instance (v : Value) : Decidable v.Writable := inferInstanceAs (Decidable (_ ≤ _))

/-- A string alone, also as the body of a procedure, is shown without quotes. -/
def displayChars : Value → List Char
  | .str text => text.toList
  | .proc _ params body _ => lambdaChars params (displayChars body)
  | v => v.chars

def display (v : Value) : String := String.ofList v.displayChars

mutual

def diagnosticChars : Value → List Char
  | .symbol name => "Symbol(".toList ++ Text.Quoted.encode name.toList ++ [')']
  | .str text => Text.Quoted.encode text.toList
  | .bool b => (if b then "True" else "False").toList
  | .list items => '[' :: [',', ' '].intercalate (diagnosticsOfItems items) ++ [']']
  | v => v.chars

def diagnosticsOfItems : List Value → List (List Char)
  | [] => []
  | v :: rest => diagnosticChars v :: diagnosticsOfItems rest

end

def diagnostic (v : Value) : String := String.ofList v.diagnosticChars

mutual

/-- The first foreign thing that the text would hold. -/
def foreign? : Value → Option Foreign
  | .foreign thing _ => some thing
  | .list items => foreignIn? items
  | .proc _ _ body _ => foreign? body
  | _ => none

def foreignIn? : List Value → Option Foreign
  | [] => none
  | v :: rest =>
    match foreign? v with
    | some thing => some thing
    | none => foreignIn? rest

end

mutual

/-- The first foreign thing inside a procedure that the diagnostic form would hold. -/
def hidden? : Value → Option Foreign
  | .list items => hiddenIn? items
  | .proc _ _ body _ => foreign? body
  | _ => none

def hiddenIn? : List Value → Option Foreign
  | [] => none
  | v :: rest =>
    match hidden? v with
    | some thing => some thing
    | none => hiddenIn? rest

end

/-- The form of a value that stands alone in a message. -/
def plain : Value → String
  | .symbol name => name
  | .str text => text
  | v => v.diagnostic

end Value

end SmallLisp
