import SmallLisp.Session.Report
import SmallLisp.Session.Script

/-! The interactive prompt. A line is a snippet, unless it begins with the command mark
and has more than that. No line ends the session but one whose failure is fatal. -/
namespace SmallLisp

/-- The file that the environment is saved to, and the one that keeps earlier lines. -/
structure Repl where
  script : Option String
  history : Option String

inductive Input where
  | line (text : String)
  | interrupt
  deriving DecidableEq, Repr

namespace Repl

def prompt : String := "\x1b[1;94mlispr λ\x1b[0m "

def commandMark : Char := '>'

/-- A file that cannot be written is reported and shown as nothing. -/
def save (path : String) : Working String := fun s =>
  match Session.save path s with
  | .ok _ s => .ok "" s
  | .error (.store e) s => (do Session.log (.storage e.message); return "" : Working String) s
  | .error e s => .error e s

def command (r : Repl) (text : String) : Working String :=
  if text = "env" then do return ", ".intercalate (← get).names
  else if text = "save" then
    match r.script with
    | none => return "no initfile set."
    | some path => save path
  else return "invalid command"

/-- The display of what the snippet evaluates to. -/
def display (source : String) : Working String := do
  match (← Session.run source).display? with
  | .ok text => return text
  | .error e => throw (.source (.evaluation e))

/-- What is shown for a snippet: nothing if it is blank, if it fails, or if there is no room for
the display of its value. -/
def evaluate (source : String) : Working (Option String) := fun s =>
  match display source s with
  | .ok text s => .ok (some text) s
  | .error (.source e) s =>
    match e.gravity with
    | .nothing => .ok none s
    | .unreadable | .failing =>
      (do Session.log (.refused e.message); return none : Working (Option String)) s
    | .fatal => .error (.source e) s
  | .error e s => .error e s

def handleLine (r : Repl) (line : String) : Working (Option String) :=
  match line.toList with
  | [] => return none
  | c :: rest =>
    if c = commandMark ∧ !rest.isEmpty then do return some (← r.command (String.ofList rest))
    else evaluate line

def respond (r : Repl) : Input → Working (Option String)
  | .line text => r.handleLine text
  | .interrupt => return some "^C"

/-- A line that gives the time of the next one. -/
def isStamp : Bytes → Bool
  | mark :: digit :: _ => mark = 0x23 && 0x30 ≤ digit && digit ≤ 0x39
  | _ => false

/-- The text of a history line: what stands before its line feed, a carriage return there,
or a zero byte. -/
def historyText (line : Bytes) : Bytes :=
  let text := line.dropLast
  let text := if text.getLast? = some 0x0D then text.dropLast else text
  text.takeWhile (· ≠ 0)

/-- The texts of a history file's lines, without the empty ones and without what no line
feed ends. A file that begins with a time has times between its lines. -/
def historyEntries (bytes : Bytes) : List Bytes :=
  let lines := (Session.splitLines bytes).filter (·.getLast? = some Session.lineFeed)
  (lines.map historyText).filter fun text =>
    !text.isEmpty && !(isStamp bytes && isStamp text)

/-- A history must be a plain file; what it is instead is not told apart. -/
def loadHistory (r : Repl) : Working (List Bytes) := fun s =>
  match r.history with
  | none => .ok [] s
  | some path =>
    match Session.readFile path s with
    | .ok bytes s => .ok (historyEntries bytes) s
    | .error (.store e) s =>
      let fault := if e.fault = .folder then .unsuitable else e.fault
      (do Session.log (.historyUnread fault.message); return [] : Working (List Bytes)) s
    | .error e s => .error e s

def saveHistory (r : Repl) (entries : List Bytes) : Working Unit := fun s =>
  match r.history with
  | none => .ok () s
  | some path =>
    match Session.writeFile path (entries.flatMap (· ++ [Session.lineFeed])) s with
    | .error (.store e) s => Session.log (.historyUnsaved e.fault.message) s
    | other => other

/-- Ends the prompt at the end of input. -/
def close (r : Repl) (entries : List Bytes) : Working (Option String) := do
  r.saveHistory entries
  return some "^D"

/-- What a whole run lets be seen: the start, then each input and the end of input. A
fatal failure is the last thing seen. -/
structure Transcript where
  start : Observed (List Bytes)
  answers : List (Observed (Option String))

def respondAll (r : Repl) (entries : List Bytes) (s : Session) :
    List Input → List (Observed (Option String))
  | [] => [s.observe (r.close entries)]
  | input :: rest =>
    let seen := s.observe (r.respond input)
    match seen.result with
    | .ok _ => seen :: respondAll r entries seen.session rest
    | .error _ => [seen]

def run (r : Repl) (inputs : List Input) (s : Session) : Transcript :=
  let start := s.observe r.loadHistory
  match start.result with
  | .ok entries => ⟨start, respondAll r entries start.session inputs⟩
  | .error _ => ⟨start, []⟩

namespace Transcript

def session (t : Transcript) : Session := (t.answers.getLast?.map (·.session)).getD t.start.session

/-- The fatal failure, if there was one. -/
def failure? (t : Transcript) : Option SessionError :=
  t.start.failure? <|> t.answers.getLast?.bind Observed.failure?

end Transcript

end Repl

end SmallLisp
