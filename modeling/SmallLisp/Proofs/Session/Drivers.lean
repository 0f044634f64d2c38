import Mathlib
import SmallLisp.Proofs.Reader.LineFeed
import SmallLisp.Proofs.Reader.Printed
import SmallLisp.Proofs.Session.Files
import SmallLisp.Proofs.Session.Lines
import SmallLisp.Proofs.Session.Reachable
import SmallLisp.Session.Repl

/-! The two drivers of a session, the script and the prompt. They take a line in the same way,
though the script leaves its line feed to it, and report the same failures, though at levels of
their own. So a script does what its lines would do at the prompt. -/
namespace SmallLisp

open Session Heap

/-- The line of a script that the event is about. -/
def Event.line? : Event → Option Nat
  | .undecodable _ line _ | .unreadable _ line _ | .failing _ line _ => some line
  | _ => none

def Report.atLevel (r : Report) (level : Level) : List Event := r.events.filter (·.level = level)

/-- What a script reports of a line that fails so, by the number of the line: that it could not be
read, or that it failed when run. There is nothing to report of a line that holds nothing. -/
def SourceError.complaint? (file : String) (number : Nat) : SourceError → Option Event
  | .reading .emptyExpression => none
  | .reading .tooDeep => some (.failing file number ReadError.tooDeep.message)
  | .reading e => some (.unreadable file number e.message)
  | .evaluation e => some (.failing file number e.message)

theorem SourceError.isSome_complaint? (file : String) (number : Nat) (e : SourceError) :
    (e.complaint? file number).isSome ↔ e.gravity ≠ .nothing := by
  cases e with
  | reading e => cases e <;> simp [complaint?, gravity]
  | evaluation e => cases e <;> simp [complaint?, gravity]

theorem SourceError.complaint?_warns {file : String} {number : Nat} {e : SourceError} {event : Event}
    (complains : event ∈ e.complaint? file number) :
    event.level = .warning ∧ event.line? = some number := by
  cases e with
  | reading e => cases e <;> cases complains <;> exact ⟨rfl, rfl⟩
  | evaluation e => cases complains; exact ⟨rfl, rfl⟩

/-- The prompt has refused the line. -/
def Observed.refuses {α : Type} (seen : Observed α) : Bool :=
  seen.report.events.any (·.level = .error)

/-- The line is a command for the prompt, and is not read. -/
def Repl.IsCommand (line : String) : Prop :=
  line.toList.head? = some Repl.commandMark ∧ 1 < line.length

/-- The machine with the event in its log, if there is one. -/
def Machine.noting (m : Machine) : Option Event → Machine
  | none => m
  | some e => m.keep e

namespace Session

/-- The session can go on, and has nothing left to report. -/
structure AtRest (s : Session) : Prop where
  ready : s.machine.Ready
  quiet : s.machine.reported = s.machine

theorem reported_observe {α : Type} (x : Working α) (s : Session) :
    (s.observe x).session.machine.reported = (s.observe x).session.machine := by
  rw [observe]
  cases x s <;> rfl

theorem Reachable.atRest {s : Session} (reachable : s.Reachable) : s.AtRest := by
  obtain ⟨store, level, seed, reaches⟩ := reachable
  have ready := Machine.ready_initial level seed
  refine ⟨(reaches.machineExtends ready).ready ready, ?_⟩
  cases reaches with
  | refl => rfl
  | step step _ => exact reported_observe _ _

/-- The expressions that the snippets evaluate in turn, and how that ends. -/
def evaluations (m : Machine) : List String → List (Value × Except EvalError Value)
  | [] => []
  | source :: rest =>
    match read source with
    | .error _ => evaluations m rest
    | .ok expr =>
      match Eval.evaluate expr root m with
      | .ok v m' => (expr, .ok v) :: evaluations m' rest
      | .error e m' => (expr, .error e) :: evaluations m' rest

/-- What the prompt shows of an evaluation. -/
def shown (evaluation : Value × Except EvalError Value) : Option String :=
  evaluation.2.toOption.bind fun v => if v.Writable then some v.display else none

/-- Of each of the snippets, run in turn, whether it has a value that there is no room to display. -/
def undisplayed (m : Machine) : List String → List Bool
  | [] => []
  | source :: rest =>
    match evaluateSource source root m with
    | .ok v m' => decide (¬ v.Writable) :: undisplayed m' rest
    | .error _ m' => false :: undisplayed m' rest

section

variable {m m' : Machine} {source : String}

theorem evaluateSource_unread {e : ReadError} (failed : read source = .error e) (m : Machine) :
    evaluateSource source root m = .error (.reading e) m := by
  rw [evaluateSource, failed]
  rfl

theorem evaluateSource_read {expr : Value} (made : read source = .ok expr) (m : Machine) :
    evaluateSource source root m = match Eval.evaluate expr root m with
      | .ok v m' => .ok v m'
      | .error e m' => .error (.evaluation e) m' := by
  rw [evaluateSource, made]
  simp only [EStateM.adaptExcept]
  cases Eval.evaluate expr root m <;> rfl

/-- No evaluation fails in a way that ends the session. -/
theorem gravity_evaluate (ready : m.Ready) {expr : Value} (made : read source = .ok expr)
    {e : EvalError} (failed : Eval.evaluate expr root m = .error e m') :
    (SourceError.evaluation e).gravity = .failing := by
  have safe := Eval.safe_evaluateWithin isName_of_quotedName? Eval.activationLimit expr root m
    ready.sound (sound_read made m.heap.next) ready.root
  rw [Eval.evaluate] at failed
  simp only [Eval.SafeValue, Eval.Safe, Ends, failed] at safe
  rcases safe.2 with expected | rfl
  · cases e <;> first | rfl | cases expected
  · rfl

theorem display_of_failed {e : SourceError} (failed : evaluateSource source root m = .error e m')
    (store : Store) : Repl.display source ⟨m, store⟩ = .error (.source e) ⟨m', store⟩ := by
  have ran : run source ⟨m, store⟩ = .error (.source e) ⟨m', store⟩ := by
    simp only [run, within, failed]
  exact bind_eq_error ran

theorem display_of_value {v : Value} (ended : evaluateSource source root m = .ok v m')
    (plain : v.foreign? = none) (store : Store) :
    Repl.display source ⟨m, store⟩ = if v.Writable then .ok v.display ⟨m', store⟩
      else .error (.source (.evaluation .tooDeep)) ⟨m', store⟩ := by
  have ran : run source ⟨m, store⟩ = .ok v ⟨m', store⟩ := by simp only [run, within, ended]
  rw [Repl.display, bind_eq ran, Value.display?_of_foreign?_eq_none plain]
  split <;> rfl

theorem evaluate_of_display {store store' : Store} {text : String}
    (displayed : Repl.display source ⟨m, store⟩ = .ok text ⟨m', store'⟩) :
    Repl.evaluate source ⟨m, store⟩ = .ok (some text) ⟨m', store'⟩ := by
  rw [Repl.evaluate, displayed]

/-- What cannot be displayed is refused, if there is anything to display. -/
theorem evaluate_refused {e : SourceError} {store : Store}
    (failed : Repl.display source ⟨m, store⟩ = .error (.source e) ⟨m', store⟩)
    (mild : e.gravity ≠ .fatal) :
    ∃ refusal : Option Event, (refusal.isSome ↔ e.gravity ≠ .nothing) ∧
      (∀ event ∈ refusal, event.level = .error) ∧
      Repl.evaluate source ⟨m, store⟩ = .ok none ⟨m'.noting refusal, store⟩ := by
  simp only [Repl.evaluate, failed]
  cases gravity : e.gravity with
  | nothing => exact ⟨none, by simp, by simp, rfl⟩
  | unreadable => exact ⟨some (.refused e.message), by simp, by rintro _ ⟨⟩; rfl, rfl⟩
  | failing => exact ⟨some (.refused e.message), by simp, by rintro _ ⟨⟩; rfl, rfl⟩
  | fatal => exact absurd gravity mild

theorem evaluate_undisplayed {v : Value} (ended : evaluateSource source root m = .ok v m')
    (plain : v.foreign? = none) (deep : ¬ v.Writable) (store : Store) :
    ∃ refusal : Event, refusal.level = .error ∧
      Repl.evaluate source ⟨m, store⟩ = .ok none ⟨m'.noting (some refusal), store⟩ := by
  have failed := display_of_value ended plain store
  rw [if_neg deep] at failed
  obtain ⟨refusal, refuses, refused, silent⟩ := evaluate_refused failed nofun
  obtain ⟨refusal, rfl⟩ := Option.isSome_iff_exists.mp (refuses.mpr nofun)
  exact ⟨refusal, refused refusal rfl, silent⟩

variable {e : SourceError} (failed : evaluateSource source root m = .error e m')
  (mild : e.gravity ≠ .fatal)

include failed mild

theorem runLine_complains (file : String) (number : Nat) :
    runLine file number source m = .ok () (m'.noting (e.complaint? file number)) := by
  simp only [runLine, failed]
  cases e with
  | reading e =>
    cases e with
    | tooManyDigits => exact absurd rfl mild
    | _ => rfl
  | evaluation e =>
    cases e with
    | misapplied | notAValue | undefined => exact absurd rfl mild
    | _ => rfl

theorem runLine_failed (file : String) (number : Nat) :
    ∃ warning : Option Event, (warning.isSome ↔ e.gravity ≠ .nothing) ∧
      (∀ event ∈ warning, event.level = .warning ∧ event.line? = some number) ∧
      runLine file number source m = .ok () (m'.noting warning) :=
  ⟨e.complaint? file number, e.isSome_complaint? file number,
    fun _ => SourceError.complaint?_warns, runLine_complains failed mild file number⟩

theorem evaluate_failed (store : Store) :
    ∃ refusal : Option Event, (refusal.isSome ↔ e.gravity ≠ .nothing) ∧
      (∀ event ∈ refusal, event.level = .error) ∧
      Repl.evaluate source ⟨m, store⟩ = .ok none ⟨m'.noting refusal, store⟩ :=
  evaluate_refused (display_of_failed failed store) mild

end

/-- A line for the prompt that is no command, and whose integers can be counted out. -/
structure IsSnippet (line : String) : Prop where
  oneLine : '\n' ∉ line.toList
  noCommand : line.toList.head? = some Repl.commandMark → line.length ≤ 1
  countable : Token.Countable (Token.lex line.toList).1

instance (line : String) : Decidable (IsSnippet line) :=
  decidable_of_iff ('\n' ∉ line.toList ∧ (line.toList.head? = some Repl.commandMark → line.length ≤ 1) ∧
    Token.Countable (Token.lex line.toList).1)
    ⟨fun ⟨a, b, c⟩ => ⟨a, b, c⟩, fun ⟨a, b, c⟩ => ⟨a, b, c⟩⟩

/-- What becomes of a line: nothing is wrong with it, it fails, or it has a value that there is no
room to display. -/
inductive Verdict where
  | fine
  | faulty
  | undisplayed
  deriving DecidableEq

/-- The prompt and a script that holds the line as this source leave the same machine, and report a
failure of it or none. The script has nothing to display. -/
structure Taken (r : Repl) (m : Machine) (line source : String) (m' : Machine)
    (now : Option (Value × Except EvalError Value)) (verdict : Verdict) : Prop where
  extends' : m.Extends IsName m'
  debugs : ∀ e ∈ m'.events, e ∈ m.events ∨ e.level = .debug
  prompt : ∀ store, ∃ refusal : Option Event, (refusal.isSome ↔ verdict ≠ .fine) ∧
    (∀ e ∈ refusal, e.level = .error) ∧
    r.handleLine line ⟨m, store⟩ = .ok (now.bind shown) ⟨m'.noting refusal, store⟩
  script : ∀ file number, ∃ warning : Option Event, (warning.isSome ↔ verdict = .faulty) ∧
    (∀ e ∈ warning, e.level = .warning ∧ e.line? = some number) ∧
    runLine file number source m = .ok () (m'.noting warning)
  lineEvaluates : ∀ rest, evaluations m (line :: rest) = now.toList ++ evaluations m' rest
  sourceEvaluates : ∀ rest, evaluations m (source :: rest) = now.toList ++ evaluations m' rest
  lineDisplays : ∀ rest,
    undisplayed m (line :: rest) = decide (verdict = .undisplayed) :: undisplayed m' rest
  silent : verdict = .undisplayed → now.bind shown = none

section

variable {r : Repl} {m m' : Machine} {line source : String}

theorem read_gap (skipped : FinalGap line.toList) : read line = .error .emptyExpression := by
  rw [read, Token.tokenize, Token.lex_finalGap skipped]
  rfl

theorem evaluate_gap (skipped : FinalGap line.toList) (s : Session) :
    Repl.evaluate line s = .ok none s := by
  have failed := display_of_failed (evaluateSource_unread (read_gap skipped) s.machine) s.store
  rw [Repl.evaluate, failed]
  rfl

theorem handleLine_evaluates (plain : ¬ Repl.IsCommand line) (s : Session) :
    r.handleLine line s = Repl.evaluate line s := by
  rw [Repl.IsCommand, ← String.length_toList] at plain
  rw [Repl.handleLine]
  cases same : line.toList with
  | nil =>
    rw [evaluate_gap (same ▸ .closed .nil)]
    rfl
  | cons c rest =>
    rw [same] at plain
    refine congrFun (if_neg ?_) s
    rintro ⟨rfl, further⟩
    have more : 0 < rest.length := List.length_pos_iff.mpr (by simpa using further)
    exact plain ⟨rfl, Nat.succ_lt_succ more⟩

theorem handleLine_snippet (snippet : IsSnippet line) (s : Session) :
    r.handleLine line s = Repl.evaluate line s :=
  handleLine_evaluates (fun command => absurd (snippet.noCommand command.1)
    (Nat.not_le_of_lt command.2)) s

/-- What cannot be read is refused at the prompt and in the script, or is nothing in both. -/
theorem taken_unread (ready : m.Ready) (snippet : IsSnippet line) {e e' : ReadError}
    (failed : read line = .error e) (failed' : read source = .error e')
    (same : (SourceError.reading e').gravity = (SourceError.reading e).gravity)
    (mild : (SourceError.reading e).gravity ≠ .fatal) :
    Taken r m line source m none
      (if (SourceError.reading e).gravity = .nothing then .fine else .faulty) where
  extends' := .refl ready.sound
  debugs _ member := .inl member
  prompt store := by
    rw [handleLine_snippet snippet]
    simpa using evaluate_failed (evaluateSource_unread failed m) mild store
  script file number := by
    have reported := runLine_failed (evaluateSource_unread failed' m) (same ▸ mild) file number
    simpa [same] using reported
  lineEvaluates rest := by simp [evaluations, failed]
  sourceEvaluates rest := by simp [evaluations, failed']
  lineDisplays rest := by
    simp only [undisplayed, evaluateSource_unread failed]
    split <;> rfl
  silent _ := rfl

section

variable {expr : Value} (made : read line = .ok expr) (made' : read source = .ok expr)

include made made'

theorem taken_value (ready : m.Ready) (snippet : IsSnippet line) {v : Value}
    (ended : Eval.evaluate expr root m = .ok v m') :
    Taken r m line source m' (some (expr, .ok v))
      (if v.Writable then .fine else .undisplayed) := by
  have outcome : evaluateSource line root m = .ok v m' := by rw [evaluateSource_read made, ended]
  have outcome' : evaluateSource source root m = .ok v m' := by rw [evaluateSource_read made', ended]
  have leads := leads_evaluateSource ready line
  have debugs := debugs_evaluateSource line root m
  simp only [Leads, Ends, after, outcome] at leads debugs
  have plain := leads.2.foreign?_eq_none
  have ran (file : String) (number : Nat) :
      runLine file number source m = .ok () (m'.noting none) := by
    simp only [runLine, outcome']
    rfl
  refine ⟨leads.1, debugs, fun store => ?_, fun file number => ⟨none, ?_, by simp, ran file number⟩,
    fun rest => ?_, fun rest => ?_, fun rest => ?_, fun deep => ?_⟩
  · rw [handleLine_snippet snippet]
    by_cases room : v.Writable
    · have displayed := display_of_value outcome plain store
      rw [if_pos room] at displayed
      refine ⟨none, by simp [room], by simp, ?_⟩
      rw [evaluate_of_display displayed]
      simp [shown, Except.toOption, room, Machine.noting]
    · obtain ⟨refusal, level, silent⟩ := evaluate_undisplayed outcome plain room store
      refine ⟨some refusal, by simp [room], by rintro _ ⟨⟩; exact level, ?_⟩
      rw [silent]
      simp [shown, Except.toOption, room]
  · split <;> simp
  · simp [evaluations, made, ended]
  · simp [evaluations, made', ended]
  · by_cases room : v.Writable <;> simp [undisplayed, outcome, room]
  · have room : ¬ v.Writable := fun room => by simp [room] at deep
    simp [shown, Except.toOption, room]

theorem taken_failure (ready : m.Ready) (snippet : IsSnippet line) {e : EvalError}
    (ended : Eval.evaluate expr root m = .error e m') :
    Taken r m line source m' (some (expr, .error e)) .faulty := by
  have outcome : evaluateSource line root m = .error (.evaluation e) m' := by
    rw [evaluateSource_read made, ended]
  have outcome' : evaluateSource source root m = .error (.evaluation e) m' := by
    rw [evaluateSource_read made', ended]
  have leads := leads_evaluateSource ready line
  have debugs := debugs_evaluateSource line root m
  simp only [Leads, Ends, after, outcome] at leads debugs
  have failing := gravity_evaluate ready made ended
  have mild : (SourceError.evaluation e).gravity ≠ .fatal := by simp [failing]
  refine ⟨leads, debugs, fun store => ?_, fun file number => ?_, fun rest => ?_, fun rest => ?_,
    fun rest => ?_, fun same => by cases same⟩
  · rw [handleLine_snippet snippet]
    simpa [failing, shown, Except.toOption] using evaluate_failed outcome mild store
  · simpa [failing] using runLine_failed outcome' mild file number
  · simp [evaluations, made, ended]
  · simp [evaluations, made', ended]
  · simp [undisplayed, outcome]

theorem taken_read (ready : m.Ready) (snippet : IsSnippet line) :
    ∃ m' now verdict, Taken r m line source m' now verdict := by
  cases ended : Eval.evaluate expr root m with
  | ok v m' => exact ⟨m', _, _, taken_value made made' ready snippet ended⟩
  | error e m' => exact ⟨m', _, _, taken_failure made made' ready snippet ended⟩

end

/-- It makes no difference whether the line feed is left to the line. -/
theorem taken (ready : m.Ready) (snippet : IsSnippet line)
    (feed : source = line ∨ source = line ++ "\n") :
    ∃ m' now verdict, Taken r m line source m' now verdict := by
  have same : read source = read line ∨ ∃ raw raw',
      read source = .error (.erroneousToken raw') ∧ read line = .error (.erroneousToken raw) := by
    rcases feed with rfl | rfl
    · exact .inl rfl
    · exact read_lineFeed line
  rcases same with same | ⟨raw, raw', failed', failed⟩
  · cases made : read line with
    | ok expr => exact taken_read made (same.trans made) ready snippet
    | error e =>
      refine ⟨m, none, _, taken_unread ready snippet made (same.trans made) rfl fun fatal => ?_⟩
      cases e with
      | tooManyDigits n => exact read_ne_tooManyDigits snippet.countable n made
      | _ => cases fatal
  · exact ⟨m, none, _, taken_unread ready snippet failed failed' rfl nofun⟩

end

end Session

/-- What each of the lines lets be seen at the prompt, one after the other. -/
def Repl.handleAll (r : Repl) (s : Session) : List String → List (Observed (Option String))
  | [] => []
  | line :: rest =>
    let seen := s.observe (r.handleLine line)
    seen :: handleAll r seen.session rest

namespace Session

/-- Where the answers end that began in the session. -/
def afterAll (s : Session) (answers : List (Observed (Option String))) : Session :=
  (answers.getLast?.map (·.session)).getD s

/-- The sources that a script holds for the lines. A line keeps its line feed or has none, and an
empty one at the end is no line of the script. -/
inductive Sources : List String → List String → Prop where
  | nil : Sources [] []
  | blank : Sources [""] []
  | next {line source : String} {lines sources : List String} :
      source = line ∨ source = line ++ "\n" → Sources lines sources →
      Sources (line :: lines) (source :: sources)

/-- Lines joined by line feeds are cut into their sources. -/
theorem sources_splitLines {lines : List String} (each : ∀ line ∈ lines, '\n' ∉ line.toList) :
    ∃ sources, Sources lines sources ∧
      splitLines (Text.Utf8.encode ("\n".intercalate lines)) = sources.map Text.Utf8.encode := by
  induction lines with
  | nil => exact ⟨[], .nil, rfl⟩
  | cons line rest ih =>
    obtain ⟨oneLine, others⟩ := List.forall_mem_cons.mp each
    cases rest with
    | nil =>
      have cut := splitLines_encode_last oneLine
      rw [String.intercalate_singleton, cut]
      by_cases empty : line = ""
      · exact ⟨[], empty ▸ .blank, if_pos empty⟩
      · exact ⟨[line], .next (.inl rfl) .nil, if_neg empty⟩
    | cons next rest =>
      obtain ⟨sources, same, cut⟩ := ih others
      refine ⟨(line ++ "\n") :: sources, .next (.inr rfl) same, ?_⟩
      rw [String.intercalate_cons_cons, encode_append, splitLines_encode oneLine, cut, List.map_cons]

/-- The machine has reported what the answers have, where the refusals are warnings that give the
numbers of the lines, from this one on, unless all that is refused is to display a value. -/
structure Told (answers : List (Observed (Option String))) (unshown : List Bool) (number : Nat)
    (m : Machine) : Prop where
  printed : m.printed = String.join (answers.map (·.report.printed))
  debug : m.events.toList.filter (·.level = .debug) =
    answers.flatMap (·.report.atLevel .debug)
  warnings : (m.events.toList.filter (·.level = .warning)).map Event.line? =
    (((answers.zip unshown).zipIdx number).filter fun a => a.1.1.refuses && !a.1.2).map
      fun a => some a.2

section

variable {m m' m₂ : Machine}

theorem reported_noting (m : Machine) (note : Option Event) :
    (m.noting note).reported = m.reported := by
  cases note <;> rfl

theorem printed_noting (m : Machine) (note : Option Event) :
    (m.noting note).printed = m.printed := by
  cases note <;> rfl

theorem events_noting (m : Machine) (note : Option Event) :
    (m.noting note).events.toList = m.events.toList ++ note.toList := by
  cases note <;> simp [Machine.noting, Machine.keep]

/-- Of the events of a line that is noted, those for debugging are the evaluation's, and no other
is of the level of the note. -/
theorem filter_noted {events : List Event} (debugs : ∀ e ∈ events, e.level = .debug)
    {note : Option Event} {level : Level} (noted : ∀ e ∈ note, e.level = level)
    (other : level ≠ .debug) :
    (events ++ note.toList).filter (·.level = .debug) = events ∧
    (events ++ note.toList).filter (·.level = level) = note.toList := by
  have quiet : ∀ e ∈ events, e.level ≠ level := fun e member same =>
    other (same.symm.trans (debugs e member))
  cases note with
  | none => simpa using ⟨debugs, quiet⟩
  | some e =>
    obtain rfl : e.level = level := noted e rfl
    simpa [other] using ⟨debugs, quiet⟩

theorem refuses_noted {α : Type} {seen : Observed α} {events : List Event}
    (debugs : ∀ e ∈ events, e.level = .debug) {refusal : Option Event}
    (refused : ∀ e ∈ refusal, e.level = .error)
    (report : seen.report.events = events ++ refusal.toList) : seen.refuses = refusal.isSome := by
  obtain ⟨-, errors⟩ := filter_noted debugs refused (by decide)
  rw [Bool.eq_iff_iff, Observed.refuses, report, List.any_eq_true]
  constructor
  · rintro ⟨e, member, level⟩
    have found : e ∈ refusal.toList := errors ▸ List.mem_filter.mpr ⟨member, level⟩
    exact Option.isSome_iff_exists.mpr ⟨e, Option.mem_toList.mp found⟩
  · intro present
    obtain ⟨e, found⟩ := Option.isSome_iff_exists.mp present
    refine ⟨e, ?_, by simpa using refused e found⟩
    exact List.mem_append_right _ (Option.mem_toList.mpr found)

/-- One line more, before the others: the machine is the one after the line's evaluation. -/
theorem Told.cons {answers : List (Observed (Option String))} {unshown : List Bool} {number : Nat}
    (told : Told answers unshown (number + 1) m') {verdict : Verdict} {seen : Observed (Option String)}
    {refusal warning : Option Event} (debugs : ∀ e ∈ m.events.toList, e.level = .debug)
    (refused : ∀ e ∈ refusal, e.level = .error)
    (warned : ∀ e ∈ warning, e.level = .warning ∧ e.line? = some number)
    (refuses : refusal.isSome ↔ verdict ≠ .fine) (warns : warning.isSome ↔ verdict = .faulty)
    (report : seen.report = (⟨m.noting refusal, .empty⟩ : Session).takeReport.1) :
    Told (seen :: answers) (decide (verdict = .undisplayed) :: unshown) number
      (m'.reporting (m.noting warning).printed (m.noting warning).events) := by
  obtain ⟨debugs₁, -⟩ := filter_noted debugs refused (by decide)
  obtain ⟨debugs₂, warnings⟩ := filter_noted debugs (fun e member => (warned e member).1) (by decide)
  have printed : seen.report.printed = m.printed := by
    rw [report]
    exact printed_noting m refusal
  have events : seen.report.events = m.events.toList ++ refusal.toList := by
    rw [report]
    exact events_noting m refusal
  have all : (m'.reporting (m.noting warning).printed (m.noting warning).events).events.toList =
      m.events.toList ++ warning.toList ++ m'.events.toList := by
    rw [← events_noting, Machine.reporting, Array.toList_append]
  have seenRefused : seen.refuses = refusal.isSome := refuses_noted debugs refused events
  refine ⟨?_, ?_, ?_⟩
  · rw [List.map_cons, String.join_cons, printed, ← told.printed, ← printed_noting m warning]
    rfl
  · rw [all, List.filter_append, debugs₂, told.debug, List.flatMap_cons, Report.atLevel, events,
      debugs₁]
  · have counted : (seen.refuses && !decide (verdict = .undisplayed)) = warning.isSome := by
      rw [seenRefused, Bool.eq_iff_iff, Bool.and_eq_true, refuses, warns]
      cases verdict <;> decide
    rw [all, List.filter_append, warnings, List.map_append, told.warnings, List.zip_cons_cons,
      List.zipIdx_cons, List.filter_cons]
    simp only [counted]
    cases warning with
    | none => simp
    | some e => simp [(warned e rfl).2]

theorem evaluations_reporting (m : Machine) (printed : String) (events : Array Event)
    (sources : List String) :
    evaluations (m.reporting printed events) sources = evaluations m sources := by
  induction sources generalizing m with
  | nil => rfl
  | cons source rest ih =>
    rw [evaluations, evaluations]
    cases read source with
    | error e => exact ih m
    | ok expr =>
      have same := Eval.reports_stepwise.evaluateWithin Eval.activationLimit expr root m printed events
      simp only [Eval.evaluate, same]
      cases Eval.evaluateWithin Eval.activationLimit expr root m with
      | ok v m' => exact congrArg ((expr, .ok v) :: ·) (ih m')
      | error e m' => exact congrArg ((expr, .error e) :: ·) (ih m')

theorem evaluations_reported (m : Machine) (sources : List String) :
    evaluations m.reported sources = evaluations m sources := by
  have same := evaluations_reporting m.reported m.printed m.events sources
  rwa [m.reporting_reported, eq_comm] at same

theorem undisplayed_reporting (m : Machine) (printed : String) (events : Array Event)
    (sources : List String) :
    undisplayed (m.reporting printed events) sources = undisplayed m sources := by
  induction sources generalizing m with
  | nil => rfl
  | cons source rest ih =>
    rw [undisplayed, undisplayed, reports_evaluateSource source root m printed events]
    cases evaluateSource source root m with
    | ok v m' => exact congrArg (decide (¬ v.Writable) :: ·) (ih m')
    | error e m' => exact congrArg (false :: ·) (ih m')

theorem undisplayed_reported (m : Machine) (sources : List String) :
    undisplayed m.reported sources = undisplayed m sources := by
  have same := undisplayed_reporting m.reported m.printed m.events sources
  rwa [m.reporting_reported, eq_comm] at same

theorem told_nil (quiet : m.reported = m) (number : Nat) : Told [] [] number m := by
  obtain ⟨printed, events⟩ := quiet_report quiet
  exact ⟨printed, by simp [events], by simp [events]⟩

/-- What is shown of the line. -/
def answer? (seen : Observed (Option String)) : Option String := seen.result.toOption.join

theorem afterAll_cons (s : Session) (seen : Observed (Option String))
    (answers : List (Observed (Option String))) :
    s.afterAll (seen :: answers) = seen.session.afterAll answers := by
  rw [afterAll, afterAll, List.getLast?_cons]
  cases answers.getLast? <;> rfl

/-- A script has done with the sources, from this number on, what the prompt does with the lines
one by one. -/
structure Agrees (r : Repl) (store : Store) (number : Nat) (m : Machine)
    (lines sources : List String) (m' : Machine) : Prop where
  told : Told (r.handleAll ⟨m, store⟩ lines) (undisplayed m lines) number m'
  session : afterAll ⟨m, store⟩ (r.handleAll ⟨m, store⟩ lines) = ⟨m'.reported, store⟩
  evaluates : evaluations m sources = evaluations m lines
  answered : ∀ seen ∈ r.handleAll ⟨m, store⟩ lines, ∃ answer, seen.result = .ok answer
  shows : (r.handleAll ⟨m, store⟩ lines).filterMap answer? = (evaluations m lines).filterMap shown
  refused : ∀ a ∈ (r.handleAll ⟨m, store⟩ lines).zip (undisplayed m lines), a.2 = true →
    a.1.refuses = true ∧ a.1.result = .ok none

variable {r : Repl} {store : Store} {number : Nat} {file line source : String}
  {lines sources : List String} {now : Option (Value × Except EvalError Value)} {verdict : Verdict}

theorem agrees_nil (quiet : m.reported = m) : Agrees r store number m [] [] m where
  told := told_nil quiet number
  session := by
    rw [quiet]
    rfl
  evaluates := rfl
  answered := nofun
  shows := rfl
  refused := nofun

theorem agrees_blank (quiet : m.reported = m) : Agrees r store number m [""] [] m := by
  have blank : read "" = .error .emptyExpression := read_gap (.closed .nil)
  have nothing : evaluations m [""] = [] := by
    rw [evaluations, blank]
    rfl
  have unshown : undisplayed m [""] = [decide (Verdict.fine = .undisplayed)] := by
    rw [undisplayed, evaluateSource_unread blank]
    rfl
  obtain ⟨printed, events⟩ := quiet_report quiet
  refine ⟨?_, rfl, nothing.symm, ?_, ?_, ?_⟩
  · have unreported : ∀ e ∈ (none : Option Event), e.level = .error := nofun
    have told : Told [(⟨m, store⟩ : Session).observe (r.handleLine "")] (undisplayed m [""]) number
        (m.reporting (m.noting none).printed (m.noting none).events) :=
      unshown ▸ (told_nil quiet (number + 1)).cons (by simp [events]) unreported nofun (by simp) (by simp)
        rfl
    rw [m.reporting_eq quiet] at told
    exact told
  · intro seen member
    rw [List.mem_singleton.mp member]
    exact ⟨none, rfl⟩
  · rw [nothing]
    rfl
  · intro a member
    rw [unshown] at member
    rw [List.mem_singleton.mp member]
    nofun

/-- What is seen of the line at the prompt. -/
theorem Taken.observed (taken : Taken r m line source m' now verdict) (store : Store) :
    ∃ refusal : Option Event, (refusal.isSome ↔ verdict ≠ .fine) ∧ (∀ e ∈ refusal, e.level = .error) ∧
      (⟨m, store⟩ : Session).observe (r.handleLine line) =
        ⟨.ok (now.bind shown), (⟨m'.noting refusal, .empty⟩ : Session).takeReport.1,
          ⟨m'.reported, store⟩⟩ := by
  obtain ⟨refusal, refuses, refused, handled⟩ := taken.prompt store
  refine ⟨refusal, refuses, refused, ?_⟩
  rw [observe, handled, ← reported_noting m' refusal]
  rfl

/-- One line more, before the others. -/
theorem Taken.agrees (taken : Taken r m line source m' now verdict) (quiet : m.reported = m)
    {warning : Option Event} (warns : warning.isSome ↔ verdict = .faulty)
    (warned : ∀ e ∈ warning, e.level = .warning ∧ e.line? = some number)
    (later : Agrees r store (number + 1) m'.reported lines sources m₂) :
    Agrees r store number m (line :: lines) (source :: sources)
      (m₂.reporting (m'.noting warning).printed (m'.noting warning).events) := by
  obtain ⟨refusal, refuses, refused, seen⟩ := taken.observed store
  have debugs : ∀ e ∈ m'.events.toList, e.level = .debug := by
    intro e member
    have each := taken.debugs e (Array.mem_toList_iff.mp member)
    simpa [(quiet_report quiet).2] using each
  have answers : r.handleAll ⟨m, store⟩ (line :: lines) =
      (⟨m, store⟩ : Session).observe (r.handleLine line) ::
        r.handleAll ⟨m'.reported, store⟩ lines := by
    rw [Repl.handleAll, seen]
  have unshown : undisplayed m (line :: lines) =
      decide (verdict = .undisplayed) :: undisplayed m'.reported lines := by
    rw [taken.lineDisplays, undisplayed_reported]
  refine ⟨?_, ?_, ?_, ?_, ?_, ?_⟩
  · rw [answers, unshown]
    exact later.told.cons debugs refused warned refuses warns (by rw [seen])
  · rw [answers, afterAll_cons, seen]
    exact later.session
  · rw [taken.sourceEvaluates, taken.lineEvaluates, ← evaluations_reported m' sources,
      ← evaluations_reported m' lines, later.evaluates]
  · rw [answers, seen]
    exact List.forall_mem_cons.mpr ⟨⟨_, rfl⟩, later.answered⟩
  · have first : ([⟨.ok (now.bind shown), (⟨m'.noting refusal, .empty⟩ : Session).takeReport.1,
        ⟨m'.reported, store⟩⟩] : List (Observed (Option String))).filterMap answer? =
        now.toList.filterMap shown := by
      cases now with
      | none => rfl
      | some evaluation => rfl
    rw [answers, seen, taken.lineEvaluates, ← evaluations_reported m' lines, List.filterMap_append,
      ← later.shows, ← first, ← List.filterMap_append]
    rfl
  · rw [answers, unshown, List.zip_cons_cons]
    refine List.forall_mem_cons.mpr ⟨fun hidden => ?_, later.refused⟩
    have verdict : verdict = .undisplayed := of_decide_eq_true hidden
    have present : refusal.isSome := refuses.mpr (by rw [verdict]; nofun)
    have events : (Session.observe (r.handleLine line) ⟨m, store⟩).report.events =
        m'.events.toList ++ refusal.toList := by
      rw [seen]
      exact events_noting m' refusal
    exact ⟨(refuses_noted debugs refused events).trans present, by rw [seen, taken.silent verdict]⟩

/-- The script goes on as if nothing had been reported of the first line. -/
theorem runLines_cons {raws : List Bytes} {warning : Option Event}
    (ran : runLine file number source m = .ok () (m'.noting warning))
    (later : runLines file (number + 1) raws m'.reported = .ok () m₂) :
    runLines file number (Text.Utf8.encode source :: raws) m =
      .ok () (m₂.reporting (m'.noting warning).printed (m'.noting warning).events) := by
  have next : m'.noting warning =
      m'.reported.reporting (m'.noting warning).printed (m'.noting warning).events := by
    rw [← reported_noting m' warning, Machine.reporting_reported]
  have rest := reports_runLines file (number + 1) raws m'.reported (m'.noting warning).printed
    (m'.noting warning).events
  rw [← next, later] at rest
  rw [runLines, Text.Utf8.decode_encode]
  exact (bind_eq ran).trans rest

/-- The script does with its lines what the prompt does with them one by one. -/
theorem runLines_agrees (r : Repl) (store : Store) (file : String) (cut : Sources lines sources)
    (ready : m.Ready) (quiet : m.reported = m) (snippets : ∀ line ∈ lines, IsSnippet line)
    (number : Nat) :
    ∃ m', runLines file number (sources.map Text.Utf8.encode) m = .ok () m' ∧
      Agrees r store number m lines sources m' := by
  induction cut generalizing m number with
  | nil => exact ⟨m, rfl, agrees_nil quiet⟩
  | blank => exact ⟨m, rfl, agrees_blank quiet⟩
  | next feed _ ih =>
    obtain ⟨snippet, others⟩ := List.forall_mem_cons.mp snippets
    obtain ⟨m', now, verdict, taken⟩ := taken (r := r) ready snippet feed
    obtain ⟨warning, warns, warned, ran⟩ := taken.script file number
    obtain ⟨m₂, ranOn, later⟩ := ih (taken.extends'.ready ready).reported rfl others (number + 1)
    exact ⟨_, runLines_cons ran ranOn, taken.agrees quiet warns warned later⟩

end

/-- A blank line is answered by nothing at all. -/
theorem handleAll_blank (r : Repl) {lines : List String} (snippets : ∀ line ∈ lines, IsSnippet line)
    {s : Session} (quiet : s.machine.reported = s.machine) :
    ∀ answered ∈ lines.zip (r.handleAll s lines), FinalGap answered.1.toList →
      answered.2.result = .ok none ∧ answered.2.report = ⟨"", []⟩ := by
  induction lines generalizing s with
  | nil => nofun
  | cons line rest ih =>
    obtain ⟨snippet, others⟩ := List.forall_mem_cons.mp snippets
    intro answered member blank
    rcases List.mem_cons.mp member with rfl | later
    · have handled : r.handleLine line s = .ok none s := by
        rw [handleLine_snippet snippet]
        exact evaluate_gap blank s
      obtain ⟨printed, events⟩ := quiet_report quiet
      simp [observe, handled, takeReport, printed, events]
    · exact ih others (reported_observe _ s) answered later blank

/-- A script of lines that are joined by line feeds, and these lines at the prompt one by one. Both
evaluate the same expressions, with the same ends, leave the same session, and print and log for
debugging the same. No line ends either. The script warns of just those lines, by their numbers,
that the prompt refuses, but for those with a value that there is no room to display: the prompt
refuses them and shows nothing, while the script displays no values. Nothing comes of blank
lines. -/
theorem runFile_agrees_with_prompt (r : Repl) {s : Session} (rest : s.AtRest) {path : String}
    {lines : List String} (snippets : ∀ line ∈ lines, IsSnippet line)
    (stored : readFile (Path.normalize path) s =
      .ok (Text.Utf8.encode ("\n".intercalate lines)) s) :
    let file := s.observe (runFile path)
    let answers := r.handleAll s lines
    let unshown := undisplayed s.machine lines
    let sources := (splitLines (Text.Utf8.encode ("\n".intercalate lines))).filterMap fun raw =>
      (Text.Utf8.decode raw).toOption
    file.result = .ok () ∧ (∀ seen ∈ answers, ∃ answer, seen.result = .ok answer) ∧
    evaluations s.machine sources = evaluations s.machine lines ∧
    answers.filterMap answer? = (evaluations s.machine lines).filterMap shown ∧
    file.session = s.afterAll answers ∧
    file.report.printed = String.join (answers.map (·.report.printed)) ∧
    file.report.atLevel .debug = answers.flatMap (·.report.atLevel .debug) ∧
    (file.report.atLevel .warning).map Event.line? =
      (((answers.zip unshown).zipIdx 1).filter fun a => a.1.1.refuses && !a.1.2).map
        (fun a => some a.2) ∧
    (∀ a ∈ answers.zip unshown, a.2 = true → a.1.refuses = true ∧ a.1.result = .ok none) ∧
    ∀ answered ∈ lines.zip answers, FinalGap answered.1.toList →
      answered.2.result = .ok none ∧ answered.2.report = ⟨"", []⟩ := by
  intro file answers unshown sources
  obtain ⟨cut, same, split⟩ := sources_splitLines fun line member => (snippets line member).oneLine
  obtain ⟨m', ran, told, final, evaluated, answered, shows, refused⟩ :=
    runLines_agrees r s.store (Path.name (Path.normalize path)) same rest.ready rest.quiet snippets 1
  have decoded : sources = cut := by
    have each : (fun raw => (Text.Utf8.decode raw).toOption) ∘ Text.Utf8.encode = some :=
      funext fun source => by simp [Text.Utf8.decode_encode, Except.toOption]
    simp only [sources]
    rw [split, List.filterMap_map, each, List.filterMap_some]
  have seen : file = ⟨.ok (), ⟨m'.printed, .running (Path.normalize path) :: m'.events.toList⟩,
      ⟨m'.reported, s.store⟩⟩ := by
    rw [← split] at ran
    exact observe_runFile rest.quiet stored ran
  have level (level : Level) (other : level ≠ .info) :
      file.report.atLevel level = m'.events.toList.filter (·.level = level) := by
    rw [seen, Report.atLevel, List.filter_cons_of_neg]
    exact fun same => other (of_decide_eq_true same).symm
  refine ⟨by rw [seen], answered, decoded ▸ evaluated, shows, ?_, ?_, ?_, ?_, refused,
    handleAll_blank r snippets rest.quiet⟩
  · rw [seen]
    exact final.symm
  · rw [seen]
    exact told.printed
  · rw [level _ (by decide)]
    exact told.debug
  · rw [level _ (by decide)]
    exact told.warnings

/-- A definition, a print, a comment, a call that fails after it has printed, a string that is not
closed, and an item before the end. -/
theorem runFile_agrees_with_prompt_failing :
    let r : Repl := ⟨none, none⟩
    let lines := ["(define x 1)", "(print x)", "; x", "(car (begin (print \"é\") x))", "\"a\\", "x;"]
    let bytes := Text.Utf8.encode ("\n".intercalate lines)
    let s : Session := ⟨{ Machine.initial with seed := 1 }, ⟨[(⟨some 0, ["f"]⟩, bytes)], []⟩⟩
    let file := s.observe (runFile "./f")
    let answers := r.handleAll s lines
    s.AtRest ∧ (∀ line ∈ lines, IsSnippet line) ∧
    readFile (Path.normalize "./f") s = .ok bytes s ∧
    file.result = .ok () ∧ file.session = s.afterAll answers ∧
    file.report.printed = String.join (answers.map (·.report.printed)) ∧
    file.report.printed = "1\né\n" ∧ answers.filterMap answer? = ["success", "nil", "1"] ∧
    (file.report.atLevel .warning).map Event.line? = [some 4, some 5] := by
  intro r lines bytes s file answers
  have rest : s.AtRest := Reachable.atRest ⟨_, .warning, 1, .refl⟩
  have snippets : ∀ line ∈ lines, IsSnippet line := by decide +kernel
  have normal : Path.normalize "./f" = "f" := by cbv
  have stored : readFile (Path.normalize "./f") s = .ok bytes s := by
    rw [normal]
    exact readFile_eq_ok.mpr ⟨by decide, by cbv⟩
  obtain ⟨result, -, -, -, session, printed, -, warnings, -⟩ :=
    runFile_agrees_with_prompt r rest snippets stored
  exact ⟨rest, snippets, stored, result, session, printed, printed.trans (by decide +kernel),
    by decide +kernel, warnings.trans (by decide +kernel)⟩

/-- The line `x`, where `x` nests deeper than a display may. The prompt refuses it and the script
does not warn of it. -/
theorem prompt_alone_refuses_nested :
    let r : Repl := ⟨none, none⟩
    let bytes := Text.Utf8.encode "x"
    let s := ofNested ⟨[(⟨some 0, ["f"]⟩, bytes)], []⟩ Value.depthLimit
    s.Reachable ∧ IsSnippet "x" ∧ readFile (Path.normalize "f") s = .ok bytes s ∧
    (s.observe (runFile "f")).report.atLevel .warning = [] ∧
    (r.handleAll s ["x"]).map (·.refuses) = [true] := by
  intro r bytes s
  have snippet : IsSnippet "x" := by decide +kernel
  have normal : Path.normalize "f" = "f" := by cbv
  have stored : readFile (Path.normalize "f") s = .ok bytes s := by
    rw [normal]
    exact readFile_eq_ok.mpr ⟨by decide, by cbv⟩
  have made : read "x" = .ok (.symbol "x") := by
    have readable : Atom.Readable "x" := by decide +kernel
    have made := read_text (.symbol readable)
    rwa [Value.text, Value.chars, String.ofList_toList] at made
  have ended : evaluateSource "x" root s.machine = .ok (.nested Value.depthLimit) s.machine := by
    rw [evaluateSource_read made]
    rfl
  refine ⟨reachable_ofNested _ .warning _, snippet, stored, ?_, ?_⟩
  · have cut : splitLines bytes = [bytes] := by decide +kernel
    have ran : runLines "f" 1 (splitLines bytes) s.machine = .ok () s.machine := by
      rw [cut, runLines, Text.Utf8.decode_encode]
      have line : runLine "f" 1 "x" s.machine = .ok () s.machine := by simp only [runLine, ended]
      exact bind_eq line
    have name : Path.name (Path.normalize "f") = "f" := by cbv
    rw [observe_runFile rfl stored (name ▸ ran)]
    rfl
  · have sound : (Value.nested Value.depthLimit).Sound IsName 0 := Value.sound_nested _
    obtain ⟨refusal, level, refused⟩ := evaluate_undisplayed ended sound.foreign?_eq_none
      Value.not_writable_nested s.store
    have seen : (s.observe (r.handleLine "x")).report.events = [refusal] := by
      rw [observe, handleLine_snippet snippet, refused]
      rfl
    rw [Repl.handleAll, Repl.handleAll, List.map_singleton, Observed.refuses, seen]
    simp [level]

end Session

end SmallLisp
