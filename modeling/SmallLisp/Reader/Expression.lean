import SmallLisp.Reader.Atom
import SmallLisp.Reader.Token

/-! Expressions from tokens, one token at a time. What is pending between two tokens is
the stack of lists that are still open, and whether a quote mark waits for its list. -/
namespace SmallLisp

/-- An open list, its items newest first. A quoted list `'(a b)` is read as
`(quote (a b))`. -/
structure OpenList where
  quoted : Bool
  items : List Value

def OpenList.close (l : OpenList) : Value :=
  let list := Value.list l.items.reverse
  if l.quoted then .list [.symbol "quote", list] else list

/-- Part of an expression: the open lists, innermost first. -/
structure Pending where
  lists : List OpenList
  marked : Bool

namespace Pending

/-- How many lists may be open at once. -/
def nestingLimit : Nat := 1000

def start : Pending := ⟨[], false⟩

/-- The inside of a list whose opening token has been read. -/
def insideList : Pending := ⟨[⟨false, []⟩], false⟩

def quoteMark : String := "'"

/-- A token leaves an expression pending, or ends it. -/
inductive Step where
  | more (p : Pending)
  | done (v : Value)

def openList (p : Pending) (quoted : Bool) : Except ReadError Step :=
  if p.lists.length < nestingLimit then .ok (.more ⟨⟨quoted, []⟩ :: p.lists, false⟩)
  else .error .tooDeep

/-- A finished value is the expression, or the next item of the innermost list. -/
def add (v : Value) : List OpenList → Step
  | [] => .done v
  | l :: outer => .more ⟨{ l with items := v :: l.items } :: outer, false⟩

def feed (p : Pending) (t : Token) : Except ReadError Step :=
  if p.marked then
    match t with
    | .lparen => p.openList true
    | _ => .error (.erroneousToken quoteMark)
  else
    match t with
    | .lparen => p.openList false
    | .rparen =>
      match p.lists with
      | [] => .error (.erroneousToken t.lexeme)
      | l :: outer => .ok (add l.close outer)
    | .string raw => .ok (add (.str (Atom.unescape raw)) p.lists)
    | .item text =>
      if text = quoteMark then .ok (.more { p with marked := true })
      else (Atom.ofItem text).map (add · p.lists)

/-- What is wrong when the tokens end here. -/
def cutOff (p : Pending) : ReadError :=
  if p.marked then .erroneousToken quoteMark
  else if p.lists.isEmpty then .emptyExpression
  else .mismatchedParens

end Pending

end SmallLisp
