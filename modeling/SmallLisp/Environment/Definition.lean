import SmallLisp.Environment.Heap
import SmallLisp.Evaluation.Error

/-! What an embedding program asks of an environment. It may offer any value as the name of
a definition, and have the frames shown. -/
namespace SmallLisp

namespace Heap

/-- Only a symbol names a binding. -/
def defineValue (h : Heap) (f : FrameId) (name v : Value) : Except EvalError Heap :=
  match name with
  | .symbol name => .ok (h.define f name v)
  | other => .error (.wrongType "define" Kind.symbol.name other.embeddedName)

def showBinding (name : String) (v : Value) : Except EvalError String :=
  match v.hidden? with
  | some thing => .error (.notAValue thing)
  | none => if v.Writable then .ok (name ++ ": " ++ v.diagnostic) else .error .tooDeep

def showBindings (b : Bindings) : Except EvalError String := do
  return "\x7b" ++ ", ".intercalate (← b.mapM fun (name, v) => showBinding name v) ++ "\x7d"

/-- The frame alone, with a sign that there is an outer one. -/
def showFrame (h : Heap) (f : FrameId) : Except EvalError String := do
  return (← showBindings (h.bindings f)) ++ if (h.outer? f).isSome then " -> ..." else ""

def showChain (h : Heap) (f : FrameId) : Except EvalError String := do
  let frames ← (h.chain f).mapM fun g => showBindings (h.bindings g)
  return "<Environment chain: " ++ " -> ".intercalate frames ++ ">"

end Heap

end SmallLisp
