import SmallLisp.Session.Report
import SmallLisp.Session.Script

/-! The steps that a session is driven by, and what each answers. The script to run may
come with the step, which then writes it first. -/
namespace SmallLisp.Session

inductive Step where
  | run (source : String)
  | runFile (path : String) (content : Option Bytes)
  | save (path : String)

inductive Answer where
  | value (v : Value)
  | finished
  | written (bytes : Bytes)

def perform : Step → Working Answer
  | .run source => do return .value (← run source)
  | .runFile path content => do
    supply (content.toList.map fun bytes => (path, bytes))
    runFile path
    return .finished
  | .save path => do
    save path
    return .written (← readFile path)

/-- What each step of a sequence lets be seen, and the session after it. -/
def performAll (s : Session) : List Step → List (Observed Answer)
  | [] => []
  | step :: rest =>
    let seen := observe (perform step) s
    seen :: performAll seen.session rest

end SmallLisp.Session
