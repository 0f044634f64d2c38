import SmallLisp.Store
import SmallLisp.Text.CharClass
import SmallLisp.Text.Quoted

/-! The command line: two flags and one operand, in any order. Short flags may be put
together, long ones shortened, and after `--` everything is an operand. -/
namespace SmallLisp

inductive Flag where
  | help
  | debug
  deriving DecidableEq, Repr

namespace Flag

/-- Every spelling, in the order in which they are listed. -/
def spellings : List (String × Flag) :=
  [("-h", .help), ("--help", .help), ("-d", .debug), ("--debug", .debug)]

def ofSpelling? (text : String) : Option Flag := spellings.lookup text

def title : Flag → String
  | .help => "-h/--help"
  | .debug => "-d/--debug"

end Flag

/-- What one argument is by its look. An option may have text attached to it. -/
inductive Word where
  | operand (text : String)
  | option (flag : Flag) (long : Bool) (attached : Option String)
  | unknown (text : String)
  | ambiguous (text : String) (candidates : List String)
  deriving DecidableEq, Repr

namespace Word

/-- The text before the first equals sign and the text after it. -/
def splitAtEquals (text : List Char) : List Char × Option (List Char) :=
  match text.span (· ≠ '=') with
  | (before, _ :: after) => (before, some after)
  | (before, []) => (before, none)

/-- A minus sign before digits with at most one point, which has a digit after it. One
line feed may follow. -/
def looksNegative (text : List Char) : Bool :=
  let isDigit := fun c => (Text.decimalValue? c).isSome
  match text with
  | '-' :: rest =>
    let rest := if rest.getLast? = some '\n' then rest.dropLast else rest
    match rest.span isDigit with
    | (digits, []) => !digits.isEmpty
    | (_, c :: fraction) => c = '.' && !fraction.isEmpty && fraction.all isDigit
  | _ => false

/-- An argument that begins like an option and is none. -/
def ofStranger (text : String) : Word :=
  if looksNegative text.toList ∨ text.toList.contains ' ' then .operand text
  else .unknown text

/-- A long option by any beginning of its name that no other has. -/
def ofLong (text : String) : Word :=
  let (start, attached) := splitAtEquals text.toList
  match Flag.spellings.filter fun s => start.isPrefixOf s.1.toList with
  | [] => ofStranger text
  | [(_, flag)] => .option flag true (attached.map String.ofList)
  | several => .ambiguous text (several.map (·.1))

/-- A short option with more text after its letter. -/
def ofShort (text : String) : Word :=
  match Flag.ofSpelling? (String.ofList (text.toList.take 2)) with
  | some flag => .option flag false (some (String.ofList (text.toList.drop 2)))
  | none => ofStranger text

def isLong (text : String) : Bool := ['-', '-'].isPrefixOf text.toList

/-- An option spelled out, with text after an equals sign or without. -/
def ofExact? (text : String) : Option Word :=
  match Flag.ofSpelling? text with
  | some flag => some (.option flag (isLong text) none)
  | none =>
    match splitAtEquals text.toList with
    | (start, some attached) =>
      let start := String.ofList start
      (Flag.ofSpelling? start).map fun flag =>
        .option flag (isLong start) (some (String.ofList attached))
    | (_, none) => none

def ofText (text : String) : Word :=
  if text.toList.head? ≠ some '-' ∨ text = "-" then .operand text
  else
    match ofExact? text with
    | some word => word
    | none => if isLong text then ofLong text else ofShort text

end Word

structure Options where
  debug : Bool
  script : Option String
  deriving DecidableEq, Repr

/-- What the command line asks for. -/
inductive Request where
  | run (options : Options)
  | help
  | refuse (problem : String)
  deriving DecidableEq, Repr

namespace Request

/-- The flags in the attached text of a short option, and whether the text after them
is refused; a flag takes none. -/
def attachedFlags (flag : Flag) (long : Bool) (attached : List Char) :
    List Flag ⊕ (Flag × String) :=
  match attached with
  | [] => .inr (flag, "")
  | c :: rest =>
    match if long then none else Flag.ofSpelling? (String.ofList ['-', c]) with
    | none => .inr (flag, String.ofList attached)
    | some next =>
      if rest.isEmpty then .inl [flag, next]
      else
        match attachedFlags next false rest with
        | .inl flags => .inl (flag :: flags)
        | .inr refused => .inr refused

def flagsOf (flag : Flag) (long : Bool) (attached : Option String) :
    List Flag ⊕ (Flag × String) :=
  match attached with
  | none => .inl [flag]
  | some text => attachedFlags flag long text.toList

/-- The options so far, the arguments that nothing wants, newest first, and whether the
argument before was the operand. -/
structure Parsing where
  options : Options
  extras : List String
  afterOperand : Bool

def Parsing.start : Parsing := ⟨⟨false, none⟩, [], false⟩

def Parsing.operand (p : Parsing) (text : String) : Parsing :=
  match p.options.script with
  | none => { p with options := { p.options with script := some text }, afterOperand := true }
  | some _ => { p with extras := text :: p.extras, afterOperand := false }

/-- The mark that ends the options is dropped next to the operand, or where the operand
may still come; elsewhere it is one argument too many. -/
def Parsing.endOptions (p : Parsing) : Parsing :=
  if p.options.script.isNone ∨ p.afterOperand then { p with afterOperand := false }
  else { p with extras := "--" :: p.extras }

def Parsing.finish (p : Parsing) : Request :=
  if p.extras.isEmpty then
    .run { p.options with script := p.options.script.map Path.normalize }
  else .refuse ("unrecognized arguments: " ++ " ".intercalate p.extras.reverse)

def refuseAttached (flag : Flag) (text : String) : Request :=
  .refuse ("argument " ++ flag.title ++ ": ignored explicit argument " ++ Text.quoted text)

/-- Help is given as soon as it is asked for. -/
def parseFrom (p : Parsing) : List String → Request
  | [] => p.finish
  | arg :: rest =>
    if arg = "--" then (rest.foldl Parsing.operand p.endOptions).finish
    else
      match Word.ofText arg with
      | .operand text => parseFrom (p.operand text) rest
      | .unknown text =>
        parseFrom { p with extras := text :: p.extras, afterOperand := false } rest
      | .ambiguous text _ => .refuse text
      | .option flag long attached =>
        match flagsOf flag long attached with
        | .inr (flag, text) => refuseAttached flag text
        | .inl flags =>
          if flags.contains .help then .help
          else
            parseFrom { p with options := { p.options with debug := true }, afterOperand := false }
              rest

/-- The first ambiguous argument before the end of the options. -/
def ambiguity? (args : List String) : Option Request :=
  (args.takeWhile (· ≠ "--")).findSome? fun arg =>
    match Word.ofText arg with
    | .ambiguous text candidates =>
      some (.refuse ("ambiguous option: " ++ text ++ " could match " ++ ", ".intercalate candidates))
    | _ => none

/-- An ambiguous argument is refused before anything else is looked at. -/
def parse (args : List String) : Request :=
  (ambiguity? args).getD (parseFrom .start args)

def usage : String := "usage: lispr [-h] [-d] [INITFILE]\n"

def helpText : String :=
  usage ++
    "\nA small S-expression interpreter.\n" ++
    "\npositional arguments:\n" ++
    "  INITFILE     scheme file to run on startup\n" ++
    "\noptions:\n" ++
    "  -h, --help   show this help message and exit\n" ++
    "  -d, --debug  log debugging output\n"

def refusal (problem : String) : String := usage ++ "lispr: error: " ++ problem ++ "\n"

end Request

end SmallLisp
