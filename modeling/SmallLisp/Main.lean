import SmallLisp.Shell.Console

/-! The program on the actual console. It reads the files that a run can touch before it
starts, and writes back those that a step has changed. -/
namespace SmallLisp.Main

/-- Puts what is at the path into the store: a file, a folder, or nothing. -/
def probe (store : Store) (path : String) : IO Store := do
  try
    let bytes ← IO.FS.readBinFile path
    return store.put (.ofPath path) bytes.toList
  catch
    | .inappropriateType .. => return store.putFolder (.ofPath path)
    | _ => return store

/-- The paths that a run can touch, with the folders they lie in. -/
def paths (options : Options) (settings : Settings) : List String :=
  let files := options.script.toList ++ [settings.history]
  files.flatMap fun path => (Path.ancestors path).filter (· ≠ Path.here) ++ [path]

def writeBack (before after : Store) : IO Unit := do
  for (place, bytes) in after.files do
    if before.file? place ≠ some bytes then
      IO.FS.writeBinFile place.path ⟨bytes.toArray⟩

def emit (o : Output) : IO Unit := do
  let err ← IO.getStderr
  let out ← IO.getStdout
  err.putStr o.err
  err.flush
  out.putStr o.out
  out.flush

/-- Shows a turn and saves what it changed; the status if the turn ended the run. -/
def settle (before : Store) (t : Console.Turn) : IO (Option UInt32) := do
  emit t.output
  writeBack before t.console.session.store
  match t.failure with
  | none => return none
  | some e =>
    (← IO.getStderr).putStrLn e.message
    return some 1

/-- The line without its line feed, or nothing at the end of input. -/
def nextLine : IO (Option String) := do
  let text ← (← IO.getStdin).getLine
  if text.isEmpty then return none
  return some ((inputLines text.toList).headD "")

partial def converse (c : Console) : IO UInt32 := do
  emit Console.prompted
  match ← nextLine with
  | none => return (← settle c.session.store c.finish).getD 0
  | some text =>
    let t := c.line text
    match ← settle c.session.store t with
    | some status => return status
    | none => converse t.console

def setting (name : String) : IO Variables := do
  return ((← IO.getEnv name).map fun value => (name, value)).toList

end SmallLisp.Main

open SmallLisp in
def main (args : List String) : IO UInt32 := do
  match Request.parse args with
  | .help =>
    Main.emit ⟨Request.helpText, ""⟩
    return 0
  | .refuse problem =>
    Main.emit ⟨"", Request.refusal problem⟩
    return 2
  | .run options =>
    let settings := Settings.ofVariables
      ((← Main.setting Settings.historyVariable) ++ (← Main.setting Settings.levelVariable))
    let store ← (Main.paths options settings).foldlM Main.probe .empty
    let started := Console.start options settings store
    match ← Main.settle store started with
    | some status => return status
    | none => Main.converse started.console
