import SmallLisp.Proofs.Session.Drivers
import SmallLisp.Proofs.Value.Spelled

/-! Saved environments that are run. A binding is saved as a definition on a line of its own, and
running the line evaluates what the text of the value spells. Only a string with a line feed takes
more lines, and what it holds after that is run in its place. -/
namespace SmallLisp

open Heap Text.Utf8

namespace Session

/-- `(define name v)` as the saved line spells it. -/
def definitionExpr (name : String) (v : Value) : Value :=
  .list [.symbol Form.define.name, .symbol name, v.spelled]

/-- The name and the text of the value are read back, and are on one line. -/
structure Savable (d : String × Value) : Prop where
  name : Atom.Readable d.1
  value : d.2.Spellable (Pending.nestingLimit - 1)

section

variable {d : String × Value} (savable : Savable d)

theorem definitionLine_eq (name : String) (v : Value) :
    definitionLine name v = (definitionExpr name v).text ++ "\n" := by
  have chars : (definitionExpr name v).chars =
      "(define ".toList ++ name.toList ++ [' '] ++ v.chars ++ [')'] := by
    rw [definitionExpr]
    simp only [Value.chars, Value.charsOfItems, List.intercalate_cons_cons, List.intercalate_singleton,
      Value.chars_spelled]
    simp [Form.name]
  rw [definitionLine, ← String.toList_inj]
  simp [Value.text, chars]

include savable

theorem Savable.spellable :
    (Value.list [.symbol Form.define.name, .symbol d.1, d.2]).Spellable Pending.nestingLimit := by
  have keyword : Atom.Readable Form.define.name := by decide +kernel
  exact .list (List.forall_mem_cons.mpr ⟨.symbol keyword, List.forall_mem_cons.mpr
    ⟨.symbol savable.name, List.forall_mem_cons.mpr ⟨savable.value, nofun⟩⟩⟩)

theorem Savable.writable : Writable d := savable.value.textDepth_le.trans (by decide)

theorem Savable.oneLine : '\n' ∉ (definitionExpr d.1 d.2).text.toList := by
  have within := savable.spellable.oneLine
  rw [← Value.chars_spelled] at within
  rw [Value.text, String.toList_ofList]
  exact within

theorem Savable.read : read (definitionLine d.1 d.2) = .ok (definitionExpr d.1 d.2) := by
  have readable : (definitionExpr d.1 d.2).Readable Pending.nestingLimit := savable.spellable.readable
  have layout : Layout [definitionExpr d.1 d.2] ((definitionExpr d.1 d.2).text.toList ++ ['\n']) :=
    .last _ (.closed (.blank (by decide) .nil))
  have made := read_layout (by simpa using readable) .nil layout
  rw [definitionLine_eq]
  rwa [List.nil_append, String.ofList_append, String.ofList_toList] at made

end

/-- Evaluating the definition evaluates the value one activation deeper. -/
theorem evaluate_definitionExpr (name : String) (v : Value) (m : Machine) :
    Eval.evaluate (definitionExpr name v) root m =
      (do
        Eval.define root name (← Eval.evaluateWithin (Eval.activationLimit - 1) v.spelled root)
        return Form.success) m := by
  have found : Builtin.ofName? Form.define.name = some (.form .define) := by decide +kernel
  change Eval.callName (Eval.evaluateWithin (Eval.activationLimit - 1)) root Form.define.name
    [.symbol name, v.spelled] m = _
  simp only [Eval.callName, found]
  rfl

/-- What running the lines of saved bindings leaves, from the line of this number on: each name
stands for what the text of its value evaluates to, or for nothing new if that fails. -/
def rerun (file : String) (number : Nat) : Bindings → Machine → Machine
  | [], m => m
  | (name, v) :: rest, m =>
    match Eval.evaluateWithin (Eval.activationLimit - 1) v.spelled root m with
    | .ok w m' => rerun file (number + 1) rest { m' with heap := m'.heap.define root name w }
    | .error e m' =>
      rerun file (number + 1) rest (m'.noting (some (.failing file number e.message)))

theorem runLine_definitionLine {m : Machine} (ready : m.Ready) {name : String} {v : Value}
    (savable : Savable (name, v)) (file : String) (number : Nat) :
    runLine file number (definitionLine name v) m =
      .ok () (match Eval.evaluateWithin (Eval.activationLimit - 1) v.spelled root m with
        | .ok w m' => { m' with heap := m'.heap.define root name w }
        | .error e m' => m'.noting (some (.failing file number e.message))) := by
  have made := savable.read
  have outcome := evaluateSource_read made m
  have evaluated := evaluate_definitionExpr name v m
  cases ended : Eval.evaluateWithin (Eval.activationLimit - 1) v.spelled root m with
  | ok w m' =>
    have defined : Eval.evaluate (definitionExpr name v) root m =
        .ok Form.success { m' with heap := m'.heap.define root name w } :=
      evaluated.trans (bind_eq ended)
    simp only [defined] at outcome
    simp only [runLine, outcome]
  | error e m' =>
    have failed : Eval.evaluate (definitionExpr name v) root m = .error e m' := by
      rw [evaluated]
      change EStateM.bind _ _ m = _
      rw [EStateM.bind, ended]
    have failing := gravity_evaluate ready made failed
    simp only [failed] at outcome
    simp only [runLine, outcome, failing]
    rfl

/-- The lines that the definition takes in the file. -/
def definitionLines (d : String × Value) : List Bytes := splitLines (encode (definitionLine d.1 d.2))

theorem Savable.definitionLines_eq {d : String × Value} (savable : Savable d) :
    definitionLines d = [encode (definitionLine d.1 d.2)] := by
  have alone := splitLines_encode savable.oneLine []
  rwa [List.append_nil, ← definitionLine_eq] at alone

theorem runLines_saved {m : Machine} (ready : m.Ready) {b : Bindings}
    (savable : ∀ d ∈ b, Savable d) (file : String) (number : Nat) :
    runLines file number (b.flatMap definitionLines) m = .ok () (rerun file number b m) := by
  induction b generalizing m number with
  | nil => rfl
  | cons d rest ih =>
    obtain ⟨name, v⟩ := d
    obtain ⟨first, others⟩ := List.forall_mem_cons.mp savable
    have ran := runLine_definitionLine ready first file number
    have leads := leads_runLine ready file number (definitionLine name v)
    simp only [Leads, Ends] at leads
    rw [ran] at leads
    have later := ih (leads.1.ready ready) others (number + 1)
    rw [List.flatMap_cons, first.definitionLines_eq, List.singleton_append, runLines, decode_encode]
    refine ((bind_eq ran).trans later).trans ?_
    rw [rerun]
    cases Eval.evaluateWithin (Eval.activationLimit - 1) v.spelled root m <;> rfl

/-- The header comes first, and then the definitions in turn. -/
theorem splitLines_script (b : Bindings) :
    splitLines (encode (script b)) = encode (fileHeader ++ "\n") :: b.flatMap definitionLines := by
  have definitions : splitLines (encode (String.join (b.map fun d => definitionLine d.1 d.2))) =
      b.flatMap definitionLines := by
    induction b with
    | nil => rfl
    | cons d rest ih =>
      rw [List.map_cons, String.join_cons, encode_append, List.flatMap_cons, ← ih, definitionLines,
        definitionLine_eq, encode_append]
      exact splitLines_append _ _
  rw [script, encode_append, splitLines_encode (by decide), definitions]

/-- The header is a comment. -/
theorem runLine_fileHeader (file : String) (number : Nat) (m : Machine) :
    runLine file number (fileHeader ++ "\n") m = .ok () m := by
  have comment : Gap (fileHeader ++ "\n").toList :=
    @Gap.comment " vim: set ft=scheme:".toList [] (by decide) .nil
  have nothing := evaluateSource_unread (read_gap (.closed comment)) m
  rw [runLine, nothing]
  rfl

/-- The definition of a string up to a line feed in it. -/
def openDefinition (name : String) (before : List Char) : String :=
  "(define " ++ name ++ " \"" ++ String.ofList (before.flatMap escapeChar)

/-- What comes after the line feed. -/
def definitionRest (after : List Char) : String :=
  String.ofList (after.flatMap escapeChar ++ ['"', ')', '\n'])

theorem definitionLine_str (name : String) (before after : List Char) :
    definitionLine name (.str (String.ofList (before ++ '\n' :: after))) =
      openDefinition name before ++ "\n" ++ definitionRest after := by
  have feed : escapeChar '\n' = ['\n'] := by decide
  rw [← String.toList_inj, definitionLine, openDefinition, definitionRest]
  simp [Value.text, Value.chars, stringChars, feed]

/-- The string that it opens is not closed by the end of the line. -/
theorem read_openDefinition {name : String} (readable : Atom.Readable name) (before : List Char) :
    read (openDefinition name before ++ "\n") =
      .error (.erroneousToken (String.ofList ('"' :: before.flatMap escapeChar ++ ['\n']))) := by
  have text : (openDefinition name before ++ "\n").toList =
      [] ++ (['('] ++ ([] ++ ("define".toList ++ ([' '] ++ (name.toList ++ ([' '] ++
        '"' :: (before.flatMap escapeChar ++ ['\n']))))))) := by
    simp [openDefinition]
  have unclosed : ¬ Token.Closes (before.flatMap escapeChar ++ ['\n']) :=
    fun closes => (Token.paired_escape before).not_closes (Token.closes_lineFeed closes)
  have splits : Token.Splits ('"' :: (before.flatMap escapeChar ++ ['\n']))
      [([], .lparen), ([], .item "define"), ([' '], .item name)] [' ']
      (openDefinition name before ++ "\n").toList := by
    rw [text]
    have space (rest : List Char) : GapBefore rest [' '] := .blank (by decide) .nil
    have keyword : IsName "define" := by decide
    exact .next .nil rfl nofun (.next .nil keyword (by simp) (.next (space _) readable.named nofun
      (.last (space _))))
  obtain ⟨raw, lexed, inner, -, whole | cut, rfl⟩ := splits.lexes_unclosed unclosed
  · rw [read, Token.tokenize, lexed, ← whole]
    rfl
  · exact absurd (List.append_inj' cut rfl).2 (by decide)

/-- The warning that the string is not closed. -/
def unclosed (file : String) (number : Nat) (before : List Char) : Event :=
  .unreadable file number (ReadError.erroneousToken
    (String.ofList ('"' :: before.flatMap escapeChar ++ ['\n']))).message

/-- A string with a line feed breaks its definition, and the first line of it only leaves a
warning. What the string holds after the line feed is run as lines of the script. -/
theorem runLines_openDefinition {name : String} (readable : Atom.Readable name)
    {before : List Char} (within : '\n' ∉ before) (after : List Char) (file : String) (number : Nat)
    (later : List Bytes) (m : Machine) :
    runLines file number
        (definitionLines (name, .str (String.ofList (before ++ '\n' :: after))) ++ later) m =
      runLines file (number + 1) (splitLines (encode (definitionRest after)) ++ later)
        (m.noting (some (unclosed file number before))) := by
  have oneLine : '\n' ∉ (openDefinition name before).toList := by
    simp [openDefinition, Value.lineFeed_not_mem_name readable.named,
      Value.lineFeed_not_mem_escape within]
  have lines : definitionLines (name, .str (String.ofList (before ++ '\n' :: after))) =
      encode (openDefinition name before ++ "\n") :: splitLines (encode (definitionRest after)) := by
    rw [definitionLines, definitionLine_str, encode_append, splitLines_encode oneLine]
  have warned : runLine file number (openDefinition name before ++ "\n") m =
      .ok () (m.noting (some (unclosed file number before))) := by
    rw [runLine, evaluateSource_unread (read_openDefinition readable before)]
    rfl
  rw [lines, List.cons_append, runLines, decode_encode]
  exact bind_eq warned

/-- A new session with the same files. -/
def renewed (s : Session) (level : Level) (seed : Nat) : Session :=
  ⟨{ Machine.initial with level, seed }, s.store⟩

/-- What is seen of a saved environment that a new session runs. -/
theorem observe_renewed {s s' : Session} {path : String} (saved : save path s = .ok () s')
    (savable : ∀ d ∈ s.machine.heap.bindings root, Savable d) (level : Level) (seed : Nat) :
    let m := rerun (Path.name (Path.normalize path)) 2 (s.machine.heap.bindings root)
      (s'.renewed level seed).machine
    (s'.renewed level seed).observe (runFile path) =
      ⟨.ok (), ⟨m.printed, .running (Path.normalize path) :: m.events.toList⟩,
        ⟨m.reported, s'.store⟩⟩ := by
  refine observe_runFile rfl (readFile_of_save saved _) ?_
  rw [splitLines_script, runLines, decode_encode]
  refine (bind_eq (runLine_fileHeader _ 1 _)).trans ?_
  exact runLines_saved (Machine.ready_initial level seed) savable _ 2

end Session

end SmallLisp
