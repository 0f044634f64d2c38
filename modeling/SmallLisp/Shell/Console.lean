import SmallLisp.Log.Line
import SmallLisp.Session.Repl
import SmallLisp.Shell.Options
import SmallLisp.Shell.Settings

/-! The program on a console: it runs the script it was given, then prompts for lines
until the input ends, and writes its log apart from its output. -/
namespace SmallLisp

/-- Text for the two output streams. -/
structure Output where
  out : String
  err : String

namespace Output

def empty : Output := ⟨"", ""⟩

def append (a b : Output) : Output := ⟨a.out ++ b.out, a.err ++ b.err⟩

instance : Append Output := ⟨append⟩

/-- A report, with its events in lines. -/
def ofReport (l : Level) (r : Report) : Output :=
  ⟨r.printed, Log.render false l (r.messages 0)⟩

end Output

/-- Lines end at a line feed, a carriage return, or the two together. -/
def inputLines (text : List Char) : List String := go [] text
where
  go (line : List Char) : List Char → List String
    | [] => if line.isEmpty then [] else [String.ofList line.reverse]
    | '\r' :: '\n' :: rest => String.ofList line.reverse :: go [] rest
    | c :: rest =>
      if c = '\n' ∨ c = '\r' then String.ofList line.reverse :: go [] rest
      else go (c :: line) rest

/-- A running console: the session, the prompt's files, the history and the log level. -/
structure Console where
  session : Session
  repl : Repl
  entries : List Bytes
  level : Level

namespace Console

/-- What one step wrote, the console after it, and the failure that ends it if any. -/
structure Turn where
  output : Output
  console : Console
  failure : Option SessionError

/-- A script that cannot be opened is reported. -/
def runScript (path : String) : Working Unit := fun s =>
  match Session.runFile path s with
  | .error (.store e) s => Session.log (.storage e.message) s
  | other => other

def begin (options : Options) : Working Unit := do
  Session.log (.optionsSet options.debug options.script)
  match options.script with
  | some path => runScript path
  | none => return ()

/-- Runs the script and opens the history. -/
def start (options : Options) (settings : Settings) (store : Store) : Turn :=
  let level := if options.debug then Level.debug else settings.level
  let repl : Repl := ⟨options.script, some settings.history⟩
  let begun := ((Session.initial store).atLevel level).observe (begin options)
  let output := Output.ofReport level begun.report
  match begun.result with
  | .error e => ⟨output, ⟨begun.session, repl, [], level⟩, some e⟩
  | .ok _ =>
    let opened := begun.session.observe repl.loadHistory
    let output := output ++ Output.ofReport level opened.report
    match opened.result with
    | .ok entries => ⟨output, ⟨opened.session, repl, entries, level⟩, none⟩
    | .error e => ⟨output, ⟨opened.session, repl, [], level⟩, some e⟩

/-- What a step of the prompt shows follows what it prints. -/
def turn (c : Console) (x : Working (Option String)) : Turn :=
  let seen := c.session.observe x
  let output := Output.ofReport c.level seen.report
  let c := { c with session := seen.session }
  match seen.result with
  | .ok (some text) => ⟨output ++ ⟨text ++ "\n", ""⟩, c, none⟩
  | .ok none => ⟨output, c, none⟩
  | .error e => ⟨output, c, some e⟩

def line (c : Console) (text : String) : Turn := c.turn (c.repl.handleLine text)

def finish (c : Console) : Turn := c.turn (c.repl.close c.entries)

def prompted : Output := ⟨Repl.prompt, ""⟩

/-- Prompts for each line and for the end of input. -/
def lines (c : Console) (written : Output) : List String → Turn
  | [] =>
    let t := c.finish
    { t with output := written ++ prompted ++ t.output }
  | text :: rest =>
    let t := c.line text
    let written := written ++ prompted ++ t.output
    match t.failure with
    | some _ => { t with output := written }
    | none => lines t.console written rest

/-- How the program ended: with a status, or by a failure. -/
structure Run where
  status : Except SessionError Nat
  output : Output
  store : Store

/-- The whole program, from its arguments to its end. -/
def run (args : List String) (vars : Variables) (store : Store) (input : String) : Run :=
  match Request.parse args with
  | .help => ⟨.ok 0, ⟨Request.helpText, ""⟩, store⟩
  | .refuse problem => ⟨.ok 2, ⟨"", Request.refusal problem⟩, store⟩
  | .run options =>
    let started := start options (.ofVariables vars) store
    let ended :=
      match started.failure with
      | some _ => started
      | none => started.console.lines started.output (inputLines input.toList)
    let status :=
      match ended.failure with
      | some e => .error e
      | none => .ok 0
    ⟨status, ended.output, ended.console.session.store⟩

end Console

end SmallLisp
