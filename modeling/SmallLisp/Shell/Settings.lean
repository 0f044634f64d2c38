import SmallLisp.Log.Level
import SmallLisp.Store
import SmallLisp.Text.CharClass
import SmallLisp.Text.LetterCase

/-! Settings from environment variables. -/
namespace SmallLisp

abbrev Variables := List (String × String)

structure Settings where
  level : Level
  history : String
  deriving DecidableEq, Repr

namespace Settings

/-- Variables hold no zero character. -/
def holdable (vars : Variables) : Bool := vars.all fun (_, v) => !v.toList.contains '\x00'

def historyVariable : String := "LISPR_HISTFILE"
def levelVariable : String := "LISPR_LOG_LEVEL"

def stripped (vars : Variables) (name : String) : String :=
  String.ofList (Text.trim Text.isBlank ((vars.lookup name).getD "").toList)

/-- A path, or the default where there is none. -/
def historyPath (vars : Variables) : String :=
  let path := stripped vars historyVariable
  if path = "" then ".lispr_hist" else Path.normalize path

/-- The level of the name in any letter case, that of warnings where there is none. -/
def logLevel (vars : Variables) : Level :=
  (Level.ofName? (Text.upper (stripped vars levelVariable))).getD Level.warning

def ofVariables (vars : Variables) : Settings := ⟨logLevel vars, historyPath vars⟩

end Settings

end SmallLisp
