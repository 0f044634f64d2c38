import SmallLisp.Evaluation.Machine

/-! Procedures: what a lambda form makes, and how a call binds its arguments. The body
runs in a new frame inside the frame that the procedure was made in, never in the
caller's. -/
namespace SmallLisp.Procedure

def lambdaName : String := "lambda"
def anonymous : String := "<anonymous procedure>"

def paramNames : List Value → Except EvalError (List String)
  | [] => .ok []
  | .symbol name :: rest => do return name :: (← paramNames rest)
  | v :: _ => .error (.mistyped (lambdaName ++ " (in params)") Kind.symbol.name v)

/-- The marker may only stand second to last. -/
def wellPlaced (params : List String) : Bool :=
  match params.idxOf? restMarker with
  | some i => i + 2 = params.length
  | none => true

def make (params body : Value) (f : FrameId) : Eval Value :=
  match params with
  | .list params => do
    let names ← ofExcept (paramNames params)
    if wellPlaced names then Eval.newProcedure names body f
    else throw (.problem lambdaName .strayMarker)
  | v => throw (.mistyped lambdaName Kind.list.name v)

def isVariadic (params : List String) : Bool := params.contains restMarker

/-- Parameters before the marker, or all of them without one. -/
def fixedCount (params : List String) : Nat := params.idxOf restMarker

def checkCount (name : String) (params : List String) (args : List Value) :
    Except EvalError Unit :=
  let fixed := fixedCount params
  let fits := if isVariadic params then fixed ≤ args.length else args.length = fixed
  if fits then .ok () else .error (.wrongCount name fixed args.length)

/-- Each parameter with its argument; the one after the marker gets the list of those
that are left. -/
def pairUp (name : String) : List String → List Value → Except EvalError (List (String × Value))
  | [], _ => .ok []
  | p :: params, args =>
    if p = restMarker then
      match params with
      | rest :: _ => .ok [(rest, .list args)]
      | [] => .error (.misapplied name)
    else
      match args with
      | a :: args => do return (p, a) :: (← pairUp name params args)
      | [] => .error (.misapplied name)

def bind (name : String) (params : List String) (args : List Value) : Except EvalError Bindings := do
  checkCount name params args
  return .ofDefinitions (← pairUp name params args)

/-- A new frame for the body, inside the captured one. -/
def extend (name : String) (params : List String) (args : List Value) (captured : FrameId) :
    Eval FrameId := do
  Eval.newFrame (← ofExcept (bind name params args)) captured

/-- Applies a procedure to evaluated arguments under the name it was called by. -/
def apply (ev : Evaluator) (name : String) (params : List String) (body : Value)
    (captured : FrameId) (args : List Value) : Eval Value := do
  Eval.log (.calling name args)
  ev body (← extend name params args captured)

end SmallLisp.Procedure
