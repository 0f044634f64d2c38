import SmallLisp.Log.Level
import SmallLisp.Value.Printer

/-! What a session reports. Every event is kept, with its data rather than its text, and
is written out only where its level is asked for. What is reported for debugging holds values, and
there may be no room to write these. -/
namespace SmallLisp

inductive Event where
  | optionsSet (debug : Bool) (script : Option String)
  | calling (name : String) (args : List Value)
  | operatorEvaluated (form operator : Value)
  | running (path : String)
  | saved (count : Nat) (path : String)
  | undecodable (file : String) (line : Nat) (problem : String)
  | unreadable (file : String) (line : Nat) (problem : String)
  | failing (file : String) (line : Nat) (problem : String)
  | refused (problem : String)
  | storage (problem : String)
  | historyUnread (problem : String)
  | historyUnsaved (problem : String)

namespace Event

def level : Event → Level
  | .optionsSet .. | .calling .. | .operatorEvaluated .. => .debug
  | .running .. | .saved .. => .info
  | .refused .. => .error
  | _ => .warning

def inLine (what file : String) (line : Nat) (problem : String) : String :=
  what ++ " " ++ file ++ ":" ++ toString line ++ ":\n  " ++ problem

def message : Event → String
  | .optionsSet debug script =>
    let file :=
      match script with
      | some path => "PosixPath(" ++ Text.quoted path ++ ")"
      | none => "None"
    "set options: Namespace(debug=" ++ (Value.bool debug).diagnostic ++ ", initfile=" ++ file ++ ")"
  | .calling name args =>
    "calling " ++ name ++ " with args: " ++ (Value.list args).diagnostic
  | .operatorEvaluated form operator =>
    "operator " ++ form.plain ++ " evaluated to " ++ operator.plain
  | .running path => "running " ++ path
  | .saved count path => "saved " ++ toString count ++ " bindings to " ++ path
  | .undecodable file line problem => inLine "stopped reading" file line problem
  | .unreadable file line problem => inLine "parsing error in" file line problem
  | .failing file line problem => inLine "runtime error in" file line problem
  | .refused problem | .storage problem => problem
  | .historyUnread problem => "error opening history file: " ++ problem
  | .historyUnsaved problem => "error saving history file: " ++ problem

/-- The values that the message is made of. -/
def values : Event → List Value
  | .calling _ args => [.list args]
  | .operatorEvaluated form operator => [form, operator]
  | _ => []

/-- A logger of the level lets the event through, but there is no room to write its message. -/
def Overflows (e : Event) (l : Level) : Prop :=
  Log.passes l e.level ∧ ∃ v ∈ e.values, ¬ v.Writable

instance (e : Event) (l : Level) : Decidable (e.Overflows l) :=
  inferInstanceAs (Decidable (_ ∧ ∃ v ∈ e.values, ¬ v.Writable))

end Event

end SmallLisp
