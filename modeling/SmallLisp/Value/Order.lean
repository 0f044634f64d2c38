import SmallLisp.Value.Basic

/-! Equality and order of values. Numbers of the two kinds compare as floating point
numbers, lists item by item, and a procedure is equal to itself only. Foreign things are
equal when they are shown alike. Lists are compared up to the first items that differ, and may not
nest too deep until then. -/
namespace SmallLisp.Value

mutual

def equal : Value → Value → Bool
  | .symbol a, .symbol b => a = b
  | .str a, .str b => a = b
  | .int a, .int b => a = b
  | .int a, .float b => (Binary64.ofInt a).equal b
  | .float a, .int b => a.equal (.ofInt b)
  | .float a, .float b => a.equal b
  | .bool a, .bool b => a = b
  | .list a, .list b => equalItems a b
  | .proc a _ _ _, .proc b _ _ _ => a = b
  | .nil, .nil => true
  | .foreign a _, .foreign b _ => a = b
  | _, _ => false

def equalItems : List Value → List Value → Bool
  | [], [] => true
  | a :: as, b :: bs => equal a b && equalItems as bs
  | _, _ => false

end

mutual

/-- How many lists are gone into, one inside the other, until it is known whether the values are
equal. Lists of different lengths are not. -/
def equalDepth : Value → Value → Nat
  | .list a, .list b => if a.length = b.length then equalDepthOfItems a b + 1 else 0
  | _, _ => 0

def equalDepthOfItems : List Value → List Value → Nat
  | a :: as, b :: bs =>
    max (equalDepth a b) (if equal a b then equalDepthOfItems as bs else 0)
  | _, _ => 0

end

/-- There is room to compare the values. -/
def Comparable (a b : Value) : Prop := equalDepth a b ≤ depthLimit

instance (a b : Value) : Decidable (a.Comparable b) := inferInstanceAs (Decidable (_ ≤ _))

/-- Only numbers are ordered. -/
def order? : Value → Value → Option Ordering
  | .int a, .int b => some (compare a b)
  | .int a, .float b => (Binary64.ofInt a).order? b
  | .float a, .int b => a.order? (.ofInt b)
  | .float a, .float b => a.order? b
  | _, _ => none

end SmallLisp.Value
