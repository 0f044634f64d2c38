import SmallLisp.Number.Binary64

/-! Values. Expressions are values too: a list is a call, a symbol a name, and anything
else stands for itself. A procedure holds the frame it was made in by its index, and an
identity that no other procedure shares. An embedding program may put things of its own
where a value belongs. Nothing that is read from text holds one. -/
namespace SmallLisp

/-- An index into the heap of frames. -/
abbrev FrameId := Nat

/-- How an embedding program shows a thing of its own, and what it calls its type. -/
structure Foreign where
  shown : String
  typeName : String
  deriving DecidableEq, Repr

/-- A foreign thing with parts is a call of them, one without stands for itself. -/
inductive Value where
  | symbol (name : String)
  | str (text : String)
  | int (n : Int)
  | float (x : Binary64)
  | bool (b : Bool)
  | list (items : List Value)
  | proc (id : Nat) (params : List String) (body : Value) (frame : FrameId)
  | nil
  | foreign (thing : Foreign) (parts : List Value)

inductive Kind where
  | symbol
  | str
  | int
  | float
  | bool
  | list
  | proc
  | nil
  | foreign
  deriving DecidableEq, Repr

/-- The name that a program sees, except that it never sees that of a foreign thing. -/
def Kind.name : Kind → String
  | .symbol => "Symbol"
  | .str => "Str"
  | .int => "Integer"
  | .float => "Float"
  | .bool => "Bool"
  | .list => "List"
  | .proc => "Proc"
  | .nil => "Nil"
  | .foreign => "Foreign"

namespace Value

def kind : Value → Kind
  | .symbol _ => .symbol
  | .str _ => .str
  | .int _ => .int
  | .float _ => .float
  | .bool _ => .bool
  | .list _ => .list
  | .proc .. => .proc
  | .nil => .nil
  | .foreign .. => .foreign

def typeName (v : Value) : String := v.kind.name

/-- The name under which an embedding program knows the type. -/
def embeddedName : Value → String
  | .symbol _ => "Symbol"
  | .str _ => "str"
  | .int _ => "int"
  | .float _ => "float"
  | .bool _ => "bool"
  | .list _ => "list"
  | .proc .. => "Lambda"
  | .nil => "NilType"
  | .foreign thing _ => thing.typeName

def isInteger : Value → Bool
  | .int _ => true
  | _ => false

def isNumber : Value → Bool
  | .int _ | .float _ => true
  | _ => false

/-- Nil, the empty list, false and the zeros are falsy. -/
def truthy : Value → Bool
  | .bool b => b
  | .nil => false
  | .list items => !items.isEmpty
  | .int n => n != 0
  | .float x => !x.isZero
  | _ => true

/-- Integers fit in 64 bits. -/
def leastInt : Int := -9223372036854775808
def greatestInt : Int := 9223372036854775807

def InRange (n : Int) : Prop := leastInt ≤ n ∧ n ≤ greatestInt

instance (n : Int) : Decidable (InRange n) := inferInstanceAs (Decidable (_ ∧ _))

/-- How deep values may nest that are written or compared, since both go inward step by step. -/
def depthLimit : Nat := 1000

end Value

/-- The parameter after this marker receives all arguments that are left. -/
def restMarker : String := "."

/-- What a quoted name quotes. -/
def quotedName? (name : String) : Option String :=
  match name.toList with
  | '\'' :: c :: rest => some (String.ofList (c :: rest))
  | _ => none

end SmallLisp
