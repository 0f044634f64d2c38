import SmallLisp.Environment.Heap
import SmallLisp.Evaluation.Error
import SmallLisp.Log.Event

/-! The state of a running program and the steps that change it. A failed evaluation
keeps the state in which it failed. Its logger writes a message as soon as it lets one through. -/
namespace SmallLisp

/-- The number of procedures made so far gives each its identity, the level is that of the logger,
and the seed is where the next random choice starts from. -/
structure Machine where
  heap : Heap
  procedures : Nat
  printed : String
  events : Array Event
  level : Level
  seed : Nat

def Machine.initial : Machine := ⟨.initial, 0, "", #[], .warning, 1⟩

/-- The machine under a logger of the level. -/
def Machine.atLevel (m : Machine) (level : Level) : Machine := { m with level }

def Machine.keep (m : Machine) (e : Event) : Machine := { m with events := m.events.push e }

/-- The machine once all that it has printed and logged has been taken. -/
def Machine.reported (m : Machine) : Machine := { m with printed := "", events := #[] }

abbrev Eval := EStateM EvalError Machine

/-- Evaluates an expression in a frame. -/
abbrev Evaluator := Value → FrameId → Eval Value

namespace Eval

def define (f : FrameId) (name : String) (v : Value) : Eval Unit :=
  modify fun m => { m with heap := m.heap.define f name v }

def undefine (f : FrameId) (name : String) : Eval Unit :=
  modify fun m => { m with heap := m.heap.undefine f name }

/-- A new frame inside `outer`. -/
def newFrame (bindings : Bindings) (outer : FrameId) : Eval FrameId :=
  modifyGet fun m => (m.heap.next, { m with heap := m.heap.push ⟨bindings, some outer⟩ })

/-- A procedure unlike any other. -/
def newProcedure (params : List String) (body : Value) (f : FrameId) : Eval Value :=
  modifyGet fun m =>
    (.proc m.procedures params body f, { m with procedures := m.procedures + 1 })

def lookup (f : FrameId) (name : String) : Eval Value :=
  return (← get).heap.get f name

def names (f : FrameId) : Eval (List String) :=
  return (← get).heap.names f

def print (text : String) : Eval Unit :=
  modify fun m => { m with printed := m.printed ++ text }

/-- Keeps an event. A logger that lets it through has to write it at once. -/
def log (e : Event) : Eval Unit := fun m =>
  if e.Overflows m.level then .error .tooDeep m
  else .ok () (m.keep e)

/-- An index below `n`, from a linear congruence on the seed. -/
def choose (n : Nat) : Eval Nat :=
  modifyGet fun m =>
    let seed := (m.seed * 6364136223846793005 + 1442695040888963407) % Nat.pow 2 64
    (seed / Nat.pow 2 33 % n, { m with seed })

end Eval

end SmallLisp
