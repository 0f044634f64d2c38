import SmallLisp.Text.CharClass
import SmallLisp.Text.LetterCaseTable

/-! Full letter case mapping, in which one character may become several. The one rule
that looks at its surroundings is the small sigma, which differs at a word's end. -/
namespace SmallLisp.Text

def CaseRun.moved? (code : Nat) : CaseRun → Option Char
  | (first, last, stride, image) =>
    if first ≤ code ∧ code ≤ last ∧ (code - first) % stride = 0 then
      some (Char.ofNat (image + (code - first)))
    else none

def mapCase (runs : List CaseRun) (expansions : List (Nat × List Nat)) (c : Char) : List Char :=
  match expansions.lookup c.toNat with
  | some codes => codes.map Char.ofNat
  | none => [(runs.findSome? (CaseRun.moved? c.toNat)).getD c]

def upperChar (c : Char) : List Char :=
  if c.toNat < 0x80 then [c.toUpper] else mapCase upperRuns upperExpansions c

def lowerChar (c : Char) : List Char :=
  if c.toNat < 0x80 then [c.toLower] else mapCase lowerRuns lowerExpansions c

def isCased (c : Char) : Bool := inRanges casedRanges c
def isTransparent (c : Char) : Bool := inRanges transparentRanges c

/-- Whether the nearest character that is not transparent has case. -/
def nextIsCased (text : List Char) : Bool :=
  match text.dropWhile isTransparent with
  | [] => false
  | c :: _ => isCased c

/-- The small letters of a text whose characters to the left are `before`, nearest first. -/
def lowerFrom (before : List Char) : List Char → List Char
  | [] => []
  | c :: rest =>
    let small :=
      if c = 'Σ' then if nextIsCased before && !nextIsCased rest then ['ς'] else ['σ']
      else lowerChar c
    small ++ lowerFrom (c :: before) rest

def upper (text : String) : String := String.ofList (text.toList.flatMap upperChar)
def lower (text : String) : String := String.ofList (lowerFrom [] text.toList)

end SmallLisp.Text
