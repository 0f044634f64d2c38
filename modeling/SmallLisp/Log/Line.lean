import SmallLisp.Log.Event

/-! Log lines: the label of the level, in its colour where colour is wanted, and the
message. -/
namespace SmallLisp.Log

def red : String := "\x1b[1;31m"
def green : String := "\x1b[1;32m"
def yellow : String := "\x1b[1;33m"
def grey : String := "\x1b[1;30m"
def reset : String := "\x1b[0m"

/-- The colour and label of a level; a level without a name of its own has no colour. -/
def style (l : Level) : String × String :=
  if l = Level.debug then (grey, "DEBUG")
  else if l = Level.info then (green, "info")
  else if l = Level.warning then (yellow, "warning")
  else if l = Level.error ∨ l = Level.critical then (red, "error")
  else ("", l.name.toLower)

/-- The colour ends after the label's colon. -/
def label (color : Bool) (l : Level) : String :=
  let (paint, text) := style l
  if color then paint ++ text ++ ":" ++ reset else text ++ ":"

/-- The name and text of a failure that a message is about. -/
def failureLine (text : String) : String :=
  "\nValueError" ++ if text = "" then "" else ": " ++ text

def line (color : Bool) (l : Level) (message : String) (failure : Option String) : String :=
  "[lispr] " ++ label color l ++ " " ++ message ++ (failure.map failureLine).getD ""

/-- Why a message does not take its arguments. -/
inductive FormatError where
  | tooFew
  | tooMany
  | notANumber (mark : Char) (type : String)
  | cutOff
  | unknownMark (c : Char) (index : Nat)
  deriving DecidableEq, Repr

def FormatError.message : FormatError → String
  | .tooFew => "not enough arguments for format string"
  | .tooMany => "not all arguments converted during string formatting"
  | .notANumber mark type =>
    "%" ++ String.singleton mark ++ " format: a real number is required, not " ++ type
  | .cutOff => "incomplete format"
  | .unknownMark c index =>
    let shown := if 0x20 ≤ c.toNat ∧ c.toNat < 0x80 then c else '?'
    "unsupported format character '" ++ String.singleton shown ++ "' (0x" ++
      String.ofList (Nat.toDigits 16 c.toNat) ++ ") at index " ++ toString index

/-- A number is written whole, without what follows its point. -/
def wholeNumber (mark : Char) : Value → Except FormatError String
  | .int n => .ok (toString n)
  | .bool b => .ok (if b then "1" else "0")
  | .float (.finite negative units _) =>
    .ok (toString (Binary64.signed negative (units / Binary64.one)))
  | v => .error (.notANumber mark v.embeddedName)

/-- What the mark before an index puts in an argument's place. -/
def conversion (c : Char) (index : Nat) (v : Value) : Except FormatError String :=
  match c with
  | 's' => .ok v.plain
  | 'r' => .ok v.diagnostic
  | 'd' | 'i' => wholeNumber c v
  | _ => .error (.unknownMark c index)

/-- Puts the arguments in the places that are marked; a doubled mark is one. -/
def fill (index : Nat) : List Char → List Value → Except FormatError (List Char)
  | [], [] => .ok []
  | [], _ :: _ => .error .tooMany
  | ['%'], _ => .error .cutOff
  | '%' :: '%' :: rest, args => do return '%' :: (← fill (index + 2) rest args)
  | '%' :: _ :: _, [] => .error .tooFew
  | '%' :: c :: rest, v :: args => do
    let text ← conversion c (index + 1) v
    return text.toList ++ (← fill (index + 2) rest args)
  | c :: rest, args => do return c :: (← fill (index + 1) rest args)

/-- Without arguments a message is taken as it is. -/
def formatMessage (template : String) (args : List Value) : Except FormatError String :=
  if args.isEmpty then .ok template else (fill 0 template.toList args).map String.ofList

/-- The lines of the messages that the logger lets through. -/
def render (color : Bool) (l : Level) (messages : List (Level × String)) : String :=
  String.join <| (messages.filter (passes l ·.1)).map fun (level, message) =>
    line color level message none ++ "\n"

/-- The one handler of a logger that was set up anew for each level: the last one
counts. -/
structure Setup where
  handlers : Nat
  propagates : Bool
  level : Option Level

def setUp (levels : List Level) : Setup :=
  levels.foldl (fun _ l => ⟨1, false, some l⟩) ⟨0, true, none⟩

/-- What a logger's stream holds after the messages. -/
def Setup.stream (s : Setup) (color : Bool) (messages : List (Level × String)) : String :=
  match s.level with
  | some l => render color l messages
  | none => ""

end SmallLisp.Log
