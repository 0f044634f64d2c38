import SmallLisp.Reader.Error
import SmallLisp.Value.Order
import SmallLisp.Value.Printer

/-! Why an evaluation fails. -/
namespace SmallLisp

/-- What a builtin finds wrong with its operands, their types and number apart. -/
inductive Problem where
  | divisionByZero
  | integerOverflow
  | emptyDefinition
  | notRedefinable
  | noBranch
  | strayMarker
  | tooFew (least : Nat) (noun : String)
  deriving DecidableEq, Repr

def Problem.text : Problem → String
  | .divisionByZero => "division by zero"
  | .integerOverflow => "integer overflow"
  | .emptyDefinition => "cannot define an empty list"
  | .notRedefinable => "only symbols can be redefined"
  | .noBranch => "no branches evaluated and no `else` branch found"
  | .strayMarker => "`.` must be followed by exactly one parameter"
  | .tooFew least noun =>
    "at least " ++ toString least ++ " " ++ noun ++ (if least = 1 then "" else "s") ++ " required"

/-- What a machine's own arithmetic leaves undefined: a quotient of integers or of floating
point numbers by zero, the widening of an integer beyond the largest floating point number,
and a remainder of an infinity or by zero. -/
inductive Undefined where
  | quotient
  | ratio
  | widening
  | remainder
  deriving DecidableEq, Repr

def Undefined.text : Undefined → String
  | .quotient => "integer division or modulo by zero"
  | .ratio => "float division by zero"
  | .widening => "int too large to convert to float"
  | .remainder => "math domain error"

/-- The causes, of which `misapplied` is left for operands in a number that the builtin's
arity excludes, or parameters that no lambda form accepts, `notAValue` for foreign things
whose type or text is asked for, and `undefined` for arithmetic outside its domain. -/
inductive EvalError where
  | problem (who : String) (what : Problem)
  | outOfBounds (index : Int)
  | wrongType (who expected got : String)
  | uncallable (name type : String)
  | wrongCount (who : String) (expected got : Nat)
  | tooDeep
  | misapplied (who : String)
  | notAValue (thing : Foreign)
  | undefined (what : Undefined)
  deriving DecidableEq, Repr

def EvalError.message : EvalError → String
  | .problem who what => who ++ ": " ++ what.text
  | .outOfBounds index => toString index ++ ": index out of bounds"
  | .wrongType who expected got =>
    who ++ ": expected a " ++ expected ++ ", got a " ++ got ++ " instead"
  | .uncallable name type => "value `" ++ name ++ "` (of type " ++ type ++ ") is uncallable"
  | .wrongCount who expected got =>
    who ++ ": expected " ++ toString expected ++ " params, got " ++ toString got ++ " instead"
  | .tooDeep => recursionMessage
  | .misapplied _ => "list index out of range"
  | .notAValue thing => "not a lispr value: " ++ thing.shown
  | .undefined what => what.text

namespace Value

/-- The type as a program sees it. -/
def typeName? : Value → Except EvalError String
  | .foreign thing _ => .error (.notAValue thing)
  | v => .ok v.typeName

/-- The value itself if it has a text that there is room for. It must hold no foreign thing. -/
def proper (v : Value) : Except EvalError Value :=
  match v.foreign? with
  | some thing => .error (.notAValue thing)
  | none => if v.Writable then .ok v else .error .tooDeep

def text? (v : Value) : Except EvalError String := v.proper.map text

def display? (v : Value) : Except EvalError String := v.proper.map display

/-- Whether the values are equal, where there is room to compare them. -/
def equal? (a b : Value) : Except EvalError Bool :=
  if a.Comparable b then .ok (a.equal b) else .error .tooDeep

end Value

namespace EvalError

/-- A value is not of the kind that is expected. -/
def mistyped (who expected : String) (v : Value) : EvalError :=
  match v.typeName? with
  | .ok type => .wrongType who expected type
  | .error e => e

/-- A value that goes by the name is no procedure. -/
def notCallable (name : String) (v : Value) : EvalError :=
  match v.typeName? with
  | .ok type => .uncallable name type
  | .error e => e

end EvalError

end SmallLisp
