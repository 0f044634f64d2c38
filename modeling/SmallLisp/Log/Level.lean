/-! Levels of messages. A level is a number, of which five have names of their own. A logger lets
through the messages of its level and above. -/
namespace SmallLisp

abbrev Level := Int

namespace Level

def notSet : Level := 0
def debug : Level := 10
def info : Level := 20
def warning : Level := 30
def error : Level := 40
def critical : Level := 50

/-- The names by which a level is asked for. -/
def names : List (String × Level) := [
  ("CRITICAL", critical), ("FATAL", critical), ("ERROR", error), ("WARNING", warning),
  ("WARN", warning), ("INFO", info), ("DEBUG", debug), ("NOTSET", notSet)]

def ofName? (name : String) : Option Level := names.lookup name

/-- The name that stands first for the level. -/
def name (l : Level) : String :=
  match names.find? (·.2 = l) with
  | some (name, _) => name
  | none => "Level " ++ toString l

end Level

namespace Log

/-- A logger that was given no level takes the one above it, which is that of warnings. -/
def threshold (l : Level) : Level := if l = Level.notSet then Level.warning else l

/-- Whether a logger of level `l` lets a message through; one without a level of its own
goes nowhere. -/
def passes (l message : Level) : Bool := Level.notSet < message && threshold l ≤ message

end Log

end SmallLisp
