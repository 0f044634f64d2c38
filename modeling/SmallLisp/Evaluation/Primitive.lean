import SmallLisp.Evaluation.Arithmetic
import SmallLisp.Evaluation.Arity
import SmallLisp.Evaluation.Machine
import SmallLisp.Text.LetterCase

/-! Builtin procedures, which receive their operands evaluated. All but the one that
prints and the one that chooses are functions of their operands. -/
namespace SmallLisp

inductive OrderOp where
  | gt
  | ge
  | lt
  | le
  deriving DecidableEq, Repr

namespace OrderOp

def name : OrderOp → String
  | .gt => ">"
  | .ge => ">="
  | .lt => "<"
  | .le => "<="

/-- Operands without an order are in no relation. -/
def holds (op : OrderOp) : Option Ordering → Bool
  | none => false
  | some o =>
    match op with
    | .gt => o = .gt
    | .ge => o ≠ .lt
    | .lt => o = .lt
    | .le => o ≠ .gt

end OrderOp

inductive Primitive where
  | arithmetic (op : ArithmeticOp)
  | equal
  | unequal
  | order (op : OrderOp)
  | and
  | or
  | not
  | listRef
  | append
  | car
  | cdr
  | length
  | cons
  | list
  | rand
  | cat
  | uppercase
  | lowercase
  | print
  deriving DecidableEq, Repr

namespace Primitive

def all : List Primitive := [
  .arithmetic .add, .arithmetic .sub, .arithmetic .mul, .arithmetic .div,
  .arithmetic .modulo, .equal, .unequal, .order .gt, .order .ge, .order .lt, .order .le,
  .and, .or, .not, .listRef, .append, .car, .cdr, .length, .cons, .list, .rand, .cat,
  .uppercase, .lowercase, .print]

def name : Primitive → String
  | .arithmetic op => op.name
  | .equal => "="
  | .unequal => "!="
  | .order op => op.name
  | .and => "and"
  | .or => "or"
  | .not => "not"
  | .listRef => "list-ref"
  | .append => "append"
  | .car => "car"
  | .cdr => "cdr"
  | .length => "length"
  | .cons => "cons"
  | .list => "list"
  | .rand => "rand"
  | .cat => "cat"
  | .uppercase => "uppercase"
  | .lowercase => "lowercase"
  | .print => "print"

def arity : Primitive → Arity
  | .arithmetic _ => .atLeast 2
  | .equal | .unequal | .order _ | .and | .or | .listRef | .append | .cons => .exactly 2
  | .not | .car | .cdr | .length | .uppercase | .lowercase => .exactly 1
  | .rand => .atLeast 1
  | .list | .cat | .print => .any

/-- The items of an operand that must be a list. -/
def items (p : Primitive) : Value → Except EvalError (List Value)
  | .list items => .ok items
  | v => .error (.mistyped p.name Kind.list.name v)

/-- The text of an operand that must be a string. -/
def string (p : Primitive) : Value → Except EvalError String
  | .str text => .ok text
  | v => .error (.mistyped p.name Kind.str.name v)

/-- The item at an index that counts from one. -/
def itemAt (items : List Value) : Value → Except EvalError Value
  | .int n =>
    if 1 ≤ n then
      match items[(n - 1).toNat]? with
      | some v => .ok v
      | none => .error (.outOfBounds n)
    else .error (.outOfBounds n)
  | v => .error (.mistyped listRef.name Kind.int.name v)

/-- How many items or characters there are. No machine has room for more of them than the
greatest integer counts. -/
def count (n : Nat) : Value := .int (min n Value.greatestInt)

def measure : Value → Except EvalError Value
  | .list items => .ok (count items.length)
  | .str text => .ok (count text.length)
  | v => .error (.mistyped length.name (Kind.list.name ++ " or " ++ Kind.str.name) v)

/-- The displays of the operands with a separator between any two. -/
def displays (separator : String) (args : List Value) : Except EvalError String := do
  return separator.intercalate (← args.mapM Value.display?)

/-- The result of a procedure without effects. -/
def result (p : Primitive) (args : List Value) : Except EvalError Value :=
  match p, args with
  | .arithmetic op, args => op.fold args
  | .equal, [a, b] => do return .bool (← a.equal? b)
  | .unequal, [a, b] => do return .bool !(← a.equal? b)
  | .order op, [a, b] => .ok (.bool (op.holds (a.order? b)))
  | .and, [a, b] => .ok (.bool (a.truthy && b.truthy))
  | .or, [a, b] => .ok (.bool (a.truthy || b.truthy))
  | .not, [a] => .ok (.bool !a.truthy)
  | .listRef, [a, b] => do itemAt (← p.items a) b
  | .append, [a, b] => do return .list ((← p.items a) ++ (← p.items b))
  | .car, [a] => do return (← p.items a).headD .nil
  | .cdr, [a] => do return .list (← p.items a).tail
  | .length, [a] => measure a
  | .cons, [a, b] => do return .list (a :: (← p.items b))
  | .list, args => .ok (.list args)
  | .cat, args => do return .str (← displays "" args)
  | .uppercase, [a] => do return .str (Text.upper (← p.string a))
  | .lowercase, [a] => do return .str (Text.lower (← p.string a))
  | _, _ => .error (.misapplied p.name)

/-- One of the values, or nil if there are none. -/
def pick (values : List Value) : Eval Value :=
  match values with
  | [] => return .nil
  | first :: _ => do return values.getD (← Eval.choose values.length) first

def run (p : Primitive) (args : List Value) : Eval Value :=
  match p, args with
  | .print, args => do
    Eval.print ((← ofExcept (displays " " args)) ++ "\n")
    return .nil
  | .rand, [a] => do pick (← ofExcept (p.items a))
  | .rand, args => pick args
  | p, args => ofExcept (p.result args)

end Primitive

end SmallLisp
