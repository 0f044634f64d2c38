import SmallLisp.Evaluation.Arity
import SmallLisp.Evaluation.Procedure

/-! Special forms, which receive their operands as written and evaluate what they need
through the evaluator they are given. -/
namespace SmallLisp

inductive Form where
  | define
  | undef
  | letIn
  | lambda
  | ifElse
  | cond
  | type
  | quote
  | eval
  | env
  | begin
  deriving DecidableEq, Repr

namespace Form

def all : List Form :=
  [.define, .undef, .letIn, .lambda, .ifElse, .cond, .type, .quote, .eval, .env, .begin]

def name : Form → String
  | .define => "define"
  | .undef => "undef"
  | .letIn => "let"
  | .lambda => Procedure.lambdaName
  | .ifElse => "if"
  | .cond => "cond"
  | .type => "type"
  | .quote => "quote"
  | .eval => "eval"
  | .env => "env"
  | .begin => "begin"

def arity : Form → Arity
  | .define | .letIn | .lambda => .exactly 2
  | .ifElse => .exactly 3
  | .cond => { Arity.atLeast 1 with noun := "branch" }
  | .undef | .type | .quote | .eval => .exactly 1
  | .env => .exactly 0
  | .begin => .any

/-- What a form gives that only changes a frame. -/
def success : Value := .str "success"

/-- A list as the target is a procedure's name and parameters. -/
def runDefine (ev : Evaluator) (f : FrameId) (target body : Value) : Eval Value :=
  match target with
  | .symbol name => do
    Eval.define f name (← ev body f)
    return success
  | .list [] => throw (.problem define.name .emptyDefinition)
  | .list (.symbol name :: params) => do
    Eval.define f name (← Procedure.make (.list params) body f)
    return success
  | .list (v :: _) => throw (.mistyped define.name Kind.symbol.name v)
  | _ => throw (.problem define.name .notRedefinable)

def runUndef (f : FrameId) (target : Value) : Eval Value :=
  match target with
  | .symbol name => do
    Eval.undefine f name
    return success
  | v => throw (.mistyped undef.name Kind.symbol.name v)

/-- Evaluates each binding outside and defines it inside. -/
def bindEach (ev : Evaluator) (outside inside : FrameId) : List Value → Eval Unit
  | [] => return ()
  | .list [.symbol name, expr] :: rest => do
    Eval.define inside name (← ev expr outside)
    bindEach ev outside inside rest
  | .list [v, _] :: _ =>
    throw (.mistyped (letIn.name ++ " (in binding)") Kind.symbol.name v)
  | .list items :: _ => throw (.wrongCount (letIn.name ++ " (in binding)") 2 items.length)
  | v :: _ => throw (.mistyped (letIn.name ++ " (in binds list)") Kind.list.name v)

def runLet (ev : Evaluator) (f : FrameId) (bindings body : Value) : Eval Value :=
  match bindings with
  | .list bindings => do
    let inside ← Eval.newFrame [] f
    bindEach ev f inside bindings
    ev body inside
  | v => throw (.mistyped letIn.name Kind.list.name v)

def runIf (ev : Evaluator) (f : FrameId) (test yes no : Value) : Eval Value := do
  if (← ev test f).truthy then ev yes f else ev no f

/-- The first branch whose test is truthy; a branch is looked at only when it is due. -/
def runCond (ev : Evaluator) (f : FrameId) : List Value → Eval Value
  | [] => throw (.problem cond.name .noBranch)
  | .list [test, consequent] :: rest => do
    if (← ev test f).truthy then ev consequent f else runCond ev f rest
  | .list items :: _ => throw (.wrongCount (cond.name ++ " (in branch)") 2 items.length)
  | v :: _ => throw (.mistyped cond.name Kind.list.name v)

/-- The value of the last expression, or `last` if there is none. -/
def sequence (ev : Evaluator) (f : FrameId) (last : Value) : List Value → Eval Value
  | [] => return last
  | expr :: rest => do sequence ev f (← ev expr f) rest

def run (ev : Evaluator) (f : FrameId) (form : Form) (operands : List Value) : Eval Value :=
  match form, operands with
  | .define, [target, body] => runDefine ev f target body
  | .undef, [target] => runUndef f target
  | .letIn, [bindings, body] => runLet ev f bindings body
  | .lambda, [params, body] => Procedure.make params body f
  | .ifElse, [test, yes, no] => runIf ev f test yes no
  | .cond, branches => runCond ev f branches
  | .type, [expr] => do return .str (← ofExcept (← ev expr f).typeName?)
  | .quote, [expr] => return expr
  | .eval, [expr] => do ev (← ev expr f) f
  | .env, [] => do return .list ((← Eval.names f).map .symbol)
  | .begin, exprs => sequence ev f .nil exprs
  | _, _ => throw (.misapplied form.name)

end Form

end SmallLisp
