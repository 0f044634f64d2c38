import SmallLisp.Evaluation.Builtin

/-! The evaluator. One step decides what an expression is and hands its parts to the
evaluator of one activation less; out of activations, evaluation fails. -/
namespace SmallLisp

/-- Names that no frame is asked for. -/
def constants : List (String × Value) := [
  ("nil", .nil), ("else", .bool true), ("pi", .float .pi), ("e", .float .euler),
  ("NAN", .float .nan), ("INF", .float (.infinite false)), ("-INF", .float (.infinite true)),
  ("MAX", .float .largest), ("MIN", .float (.neg .largest))]

namespace Eval

def resolve (name : String) (f : FrameId) : Eval Value :=
  match constants.lookup name with
  | some v => return v
  | none => lookup f name

def evaluateAll (ev : Evaluator) (f : FrameId) : List Value → Eval (List Value)
  | [] => return []
  | expr :: rest => do
    let v ← ev expr f
    return v :: (← evaluateAll ev f rest)

def runBuiltin (ev : Evaluator) (f : FrameId) (b : Builtin) (operands : List Value) : Eval Value := do
  ofExcept (b.checkArity operands.length)
  match b with
  | .form s => s.run ev f operands
  | .primitive p => p.run (← evaluateAll ev f operands)

/-- Calls what a name means. Operands of what cannot be called are not evaluated. -/
def callName (ev : Evaluator) (f : FrameId) (name : String) (operands : List Value) : Eval Value :=
  match Builtin.ofName? name with
  | some b => runBuiltin ev f b operands
  | none => do
    match ← resolve name f with
    | .proc _ params body captured =>
      Procedure.apply ev name params body captured (← evaluateAll ev f operands)
    | v => throw (.notCallable name v)

/-- An operator that is itself a call is evaluated, and its value called in its place. -/
def call (ev : Evaluator) (f : FrameId) (head : Value) (operands : List Value) : Eval Value :=
  match head with
  | .symbol name => callName ev f name operands
  | .list _ => do
    let operator ← ev head f
    log (.operatorEvaluated head operator)
    ev (.list (operator :: operands)) f
  | .proc _ params body captured => do
    Procedure.apply ev Procedure.anonymous params body captured (← evaluateAll ev f operands)
  | v => throw (.notCallable v.display v)

def step (ev : Evaluator) (expr : Value) (f : FrameId) : Eval Value :=
  match expr with
  | .symbol name =>
    match quotedName? name with
    | some quoted => return .symbol quoted
    | none => resolve name f
  | .list [] => return .nil
  | .list (head :: operands) | .foreign _ (head :: operands) => call ev f head operands
  | v => return v

/-- Evaluation with at most so many activations at once. -/
def evaluateWithin : Nat → Evaluator
  | 0, _, _ => throw .tooDeep
  | n + 1, expr, f => step (evaluateWithin n) expr f

def activationLimit : Nat := 1000

def evaluate (expr : Value) (f : FrameId) : Eval Value := evaluateWithin activationLimit expr f

end Eval

end SmallLisp
