import SmallLisp.Session.Basic

/-! Scripts. Each line of a file is a snippet of its own. A line that fails is reported
and the next one runs; a line that is not UTF-8 is reported and ends the script. -/
namespace SmallLisp.Session

def lineFeed : UInt8 := 0x0A

/-- Lines end after a line feed, which they keep. -/
def splitLines : Bytes → List Bytes
  | [] => []
  | byte :: rest =>
    if byte = lineFeed then [byte] :: splitLines rest
    else
      match splitLines rest with
      | [] => [[byte]]
      | line :: lines => (byte :: line) :: lines

def runLine (file : String) (number : Nat) (line : String) : Running Unit := fun m =>
  match evaluateSource line Heap.root m with
  | .ok _ m => .ok () m
  | .error e m =>
    match e.gravity with
    | .nothing => .ok () m
    | .unreadable => .ok () (m.keep (.unreadable file number e.message))
    | .failing => .ok () (m.keep (.failing file number e.message))
    | .fatal => .error e m

def runLines (file : String) (number : Nat) : List Bytes → Running Unit
  | [] => return ()
  | raw :: rest =>
    match Text.Utf8.decode raw with
    | .ok line => do
      runLine file number line
      runLines file (number + 1) rest
    | .error fault =>
      modify (·.keep (.undecodable file number fault.message))

def runFile (path : String) : Working Unit := do
  let path := Path.normalize path
  log (.running path)
  let bytes ← readFile path
  within (runLines (Path.name path) 1 (splitLines bytes))

end SmallLisp.Session
