import SmallLisp.Evaluation.Error

/-! How many operands a builtin takes. The number is checked on the operands as written,
before any of them is evaluated. -/
namespace SmallLisp

/-- An exact number or none, a least number, and what the least number counts. -/
structure Arity where
  exact : Option Nat
  least : Nat
  noun : String
  deriving DecidableEq, Repr

namespace Arity

def exactly (n : Nat) : Arity := ⟨some n, 0, "argument"⟩
def atLeast (n : Nat) : Arity := ⟨none, n, "argument"⟩
def any : Arity := atLeast 0

def check (a : Arity) (who : String) (got : Nat) : Except EvalError Unit :=
  match a.exact with
  | some n => if got = n then .ok () else .error (.wrongCount who n got)
  | none => if got < a.least then .error (.problem who (.tooFew a.least a.noun)) else .ok ()

end Arity

end SmallLisp
