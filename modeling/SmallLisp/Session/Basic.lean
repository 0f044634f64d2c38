import SmallLisp.Evaluation.Evaluate
import SmallLisp.Reader.Read
import SmallLisp.Store
import SmallLisp.Text.Utf8

/-! A session: a program state that snippets, scripts and saved environments share, and
the files it works on. -/
namespace SmallLisp

/-- Why a snippet has no value. -/
inductive SourceError where
  | reading (e : ReadError)
  | evaluation (e : EvalError)
  deriving DecidableEq, Repr

namespace SourceError

def message : SourceError → String
  | .reading e => e.message
  | .evaluation e => e.message

/-- How a failure is taken: there was nothing to do, the snippet could not be read, or it
failed when run. What is none of these ends what the snippet is part of. -/
inductive Gravity where
  | nothing
  | unreadable
  | failing
  | fatal
  deriving DecidableEq, Repr

def gravity : SourceError → Gravity
  | .reading .emptyExpression => .nothing
  | .reading .mismatchedParens | .reading (.erroneousToken _) => .unreadable
  | .reading .tooDeep => .failing
  | .reading (.tooManyDigits _) => .fatal
  | .evaluation (.misapplied _) | .evaluation (.notAValue _) | .evaluation (.undefined _) => .fatal
  | .evaluation _ => .failing

end SourceError

/-- Steps of a program state that fail with a snippet. -/
abbrev Running := EStateM SourceError Machine

/-- Evaluates the first expression of a snippet, all of which must be readable. -/
def evaluateSource (source : String) (f : FrameId) : Running Value :=
  match read source with
  | .error e => throw (.reading e)
  | .ok expr => (Eval.evaluate expr f).adaptExcept .evaluation

structure Session where
  machine : Machine
  store : Store

/-- Why a step fails. No file has a name with a zero character in it. -/
inductive SessionError where
  | source (e : SourceError)
  | store (e : StoreError)
  | unnameable
  deriving DecidableEq, Repr

def SessionError.message : SessionError → String
  | .source e => e.message
  | .store e => e.message
  | .unnameable => "embedded null byte"

/-- Steps of a session. -/
abbrev Working := EStateM SessionError Session

namespace Session

def initial (store : Store) : Session := ⟨.initial, store⟩

def atLevel (s : Session) (level : Level) : Session :=
  { s with machine := s.machine.atLevel level }

/-- Runs the program state of the session. -/
def within {α : Type} (x : Running α) : Working α := fun s =>
  match x s.machine with
  | .ok a machine => .ok a { s with machine }
  | .error e machine => .error (.source e) { s with machine }

def log (e : Event) : Working Unit :=
  modify fun s => { s with machine := s.machine.keep e }

def names (s : Session) : List String := s.machine.heap.names Heap.root

/-- Does to the store what needs the file at the path. -/
def withFile {α : Type} (path : String) (use : Store → Except StoreFault α) : Working α := do
  if path.toList.contains '\x00' then throw .unnameable
  match use (← get).store with
  | .ok a => return a
  | .error fault => throw (.store ⟨fault, path⟩)

def readFile (path : String) : Working Bytes := withFile path (·.read path)

def writeFile (path : String) (bytes : Bytes) : Working Unit := do
  let store ← withFile path (·.write path bytes)
  modify fun s => { s with store }

/-- Writes each of the files in turn. -/
def supply : List (String × Bytes) → Working Unit
  | [] => return ()
  | (path, bytes) :: rest => do
    writeFile path bytes
    supply rest

/-- Runs a snippet in the root frame. -/
def run (source : String) : Working Value := within (evaluateSource source Heap.root)

def fileHeader : String := "; vim: set ft=scheme:"

def definitionLine (name : String) (v : Value) : String :=
  "(define " ++ name ++ " " ++ v.text ++ ")\n"

/-- The root's bindings as a script, one definition a line. -/
def script (b : Bindings) : String :=
  fileHeader ++ "\n" ++ String.join (b.map fun (name, v) => definitionLine name v)

def Writable (d : String × Value) : Prop := d.2.Writable

instance (d : String × Value) : Decidable (Writable d) := inferInstanceAs (Decidable d.2.Writable)

/-- Writes the root's bindings to a file, those before one that nests too deep if there is such a
one. -/
def save (path : String) : Working Unit := do
  let path := Path.normalize path
  let bindings := (← get).machine.heap.bindings Heap.root
  writeFile path (Text.Utf8.encode (script (bindings.takeWhile fun d => Writable d)))
  if bindings.all fun d => Writable d then log (.saved bindings.length path)
  else throw (.source (.evaluation .tooDeep))

end Session

end SmallLisp
