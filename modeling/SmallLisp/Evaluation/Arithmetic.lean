import SmallLisp.Evaluation.Error

/-! Arithmetic on lists of numbers, from the left. Integers are exact and must stay
within 64 bits; once an operand is a floating point number, the result is one. -/
namespace SmallLisp

inductive ArithmeticOp where
  | add
  | sub
  | mul
  | div
  | modulo
  deriving DecidableEq, Repr

namespace ArithmeticOp

def name : ArithmeticOp → String
  | .add => "+"
  | .sub => "-"
  | .mul => "*"
  | .div => "/"
  | .modulo => "modulo"

def divides (op : ArithmeticOp) : Bool := op = .div || op = .modulo

/-- Rounded toward zero. -/
def quotient (a b : Int) : Except EvalError Int :=
  if b = 0 then .error (.undefined .quotient) else .ok (a.tdiv b)

/-- The remainder has the dividend's sign. -/
def onInt (op : ArithmeticOp) (a b : Int) : Except EvalError Int :=
  match op with
  | .add => .ok (a + b)
  | .sub => .ok (a - b)
  | .mul => .ok (a * b)
  | .div => quotient a b
  | .modulo => (quotient a b).map fun q => a - b * q

/-- A number divided by zero is infinite, unless it is zero itself or no number. -/
def ratio (a b : Binary64) : Except EvalError Binary64 :=
  if b.isZero then .ok (if a.isZero || a.isNaN then .nan else .infinite (a.sign != b.sign))
  else
    match a.div? b with
    | some x => .ok x
    | none => .error (.undefined .ratio)

/-- There is no remainder of an infinity, or by zero. -/
def remainder (a b : Binary64) : Except EvalError Binary64 :=
  if b.isZero || a.isInfinite then .ok .nan
  else
    match a.rem? b with
    | some x => .ok x
    | none => .error (.undefined .remainder)

def onFloat (op : ArithmeticOp) (a b : Binary64) : Except EvalError Binary64 :=
  match op with
  | .add => .ok (a.add b)
  | .sub => .ok (a.sub b)
  | .mul => .ok (a.mul b)
  | .div => ratio a b
  | .modulo => remainder a b

def checkedInt (op : ArithmeticOp) (a b : Int) : Except EvalError Int :=
  if op.divides ∧ b = 0 then .error (.problem op.name .divisionByZero)
  else do
    let r ← op.onInt a b
    if Value.InRange r then return r else throw (.problem op.name .integerOverflow)

/-- A number as an operand. -/
inductive Operand where
  | int (n : Int)
  | float (x : Binary64)

/-- The nearest floating point number, which must be finite. -/
def widen (n : Int) : Except EvalError Binary64 :=
  let x := Binary64.ofInt n
  if x.isInfinite then .error (.undefined .widening) else .ok x

def Operand.toFloat : Operand → Except EvalError Binary64
  | .int n => widen n
  | .float x => .ok x

def Operand.toValue : Operand → Value
  | .int n => .int n
  | .float x => .float x

def operand (op : ArithmeticOp) : Value → Except EvalError Operand
  | .int n => .ok (.int n)
  | .float x => .ok (.float x)
  | v => .error (.mistyped op.name "number" v)

def operands (op : ArithmeticOp) : List Value → Except EvalError (List Operand)
  | [] => .ok []
  | v :: rest => do return (← op.operand v) :: (← op.operands rest)

def step (op : ArithmeticOp) : Operand → Operand → Except EvalError Operand
  | .int a, .int b => (op.checkedInt a b).map .int
  | a, b => do return .float (← op.onFloat (← a.toFloat) (← b.toFloat))

/-- Every operand is seen to be a number before the first step is taken. -/
def fold (op : ArithmeticOp) (args : List Value) : Except EvalError Value := do
  match ← op.operands args with
  | first :: rest => return (← rest.foldlM op.step first).toValue
  | [] => throw (.misapplied op.name)

end ArithmeticOp

end SmallLisp
