import SmallLisp.Evaluation.Form
import SmallLisp.Evaluation.Primitive

/-! The table of builtins. A builtin is found by its name before any frame is looked at,
so no definition hides it where it is called. -/
namespace SmallLisp

inductive Builtin where
  | form (s : Form)
  | primitive (p : Primitive)
  deriving DecidableEq, Repr

namespace Builtin

def all : List Builtin := Form.all.map .form ++ Primitive.all.map .primitive

def name : Builtin → String
  | .form s => s.name
  | .primitive p => p.name

def arity : Builtin → Arity
  | .form s => s.arity
  | .primitive p => p.arity

def isSpecial : Builtin → Bool
  | .form _ => true
  | .primitive _ => false

def ofName? (name : String) : Option Builtin := all.find? (·.name = name)

def checkArity (b : Builtin) (got : Nat) : Except EvalError Unit := b.arity.check b.name got

end Builtin

end SmallLisp
