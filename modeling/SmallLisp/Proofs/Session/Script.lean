import SmallLisp.Proofs.Session.Conversation

/-! A whole run of a script. Its bytes are cut after line feeds before they are decoded, and the
lines up to the first that is not UTF-8 are run as snippets, one after the other, whether they fail
or not. Nothing of that line or of those after it is run, and a script that has been encoded has no
such line. -/
namespace SmallLisp

open Session Heap Text.Utf8

/-- What a script reports of a line that ends as this was seen to end. -/
def Observed.complaint? {α : Type} (file : String) (number : Nat) (seen : Observed α) :
    Option Event :=
  match seen.result with
  | .error (.source e) => e.complaint? file number
  | _ => none

theorem Observed.complaint?_warns {α : Type} {file : String} {number : Nat} {seen : Observed α}
    {event : Event} (complains : event ∈ seen.complaint? file number) :
    event.level = .warning ∧ event.line? = some number := by
  rw [complaint?] at complains
  split at complains
  · exact SourceError.complaint?_warns complains
  · cases complains

namespace Session

/-- The bytes are these lines and then others, of which the first is not UTF-8. -/
structure Leading (bytes : Bytes) (lines : List String) (others : List Bytes) : Prop where
  cut : CutAfter lineFeed bytes (lines.map encode ++ others)
  undecodable : ∀ raw ∈ others.head?, ∀ text, raw ≠ encode text

section

variable {bytes : Bytes} {lines lines' : List String} {others : List Bytes}

theorem exists_decoded (raws : List Bytes) : ∃ (lines : List String) (others : List Bytes),
    raws = lines.map encode ++ others ∧ ∀ raw ∈ others.head?, ∀ text, raw ≠ encode text := by
  induction raws with
  | nil => exact ⟨[], [], rfl, nofun⟩
  | cons raw rest ih =>
    by_cases decodable : ∃ text, raw = encode text
    · obtain ⟨line, rfl⟩ := decodable
      obtain ⟨lines, others, rfl, undecodable⟩ := ih
      exact ⟨line :: lines, others, rfl, undecodable⟩
    · refine ⟨[], raw :: rest, rfl, ?_⟩
      rintro _ ⟨⟩ text rfl
      exact decodable ⟨text, rfl⟩

theorem exists_leading (bytes : Bytes) : ∃ lines others, Leading bytes lines others := by
  obtain ⟨raws, cut⟩ := exists_cutAfter lineFeed bytes
  obtain ⟨lines, others, rfl, undecodable⟩ := exists_decoded raws
  exact ⟨lines, others, cut, undecodable⟩

theorem encode_injective : Function.Injective encode := fun s t same =>
  Except.ok.inj ((decode_encode s).symm.trans (same ▸ decode_encode t))

/-- Where all lines are decoded there are no others. -/
theorem Leading.of_all_decoded (leading : Leading bytes lines others)
    (same : lines.map encode ++ others = lines'.map encode) : others = [] ∧ lines = lines' := by
  cases others with
  | nil =>
    rw [List.append_nil] at same
    exact ⟨rfl, List.map_injective_iff.mpr encode_injective same⟩
  | cons raw rest =>
    have member : raw ∈ lines'.map encode := same ▸ List.mem_append_right _ List.mem_cons_self
    obtain ⟨line, -, encoded⟩ := List.mem_map.mp member
    exact absurd encoded.symm (leading.undecodable raw rfl line)

/-- The bytes are those of a text just if they are decoded line by line, and the lines are those of
the text. -/
theorem Leading.eq_encode_iff (leading : Leading bytes lines others) (text : String) :
    bytes = encode text ↔ others = [] ∧ CutAfter '\n' text.toList (lines.map String.toList) := by
  constructor
  · rintro rfl
    obtain ⟨lines', cut⟩ := exists_lines text
    have same := leading.cut.splitLines_eq.symm.trans (cutAfter_encode cut).splitLines_eq
    obtain ⟨none, rfl⟩ := leading.of_all_decoded same
    exact ⟨none, cut⟩
  · rintro ⟨rfl, cut⟩
    have whole := leading.cut.flatten
    rw [List.append_nil] at whole
    exact whole.symm.trans (cutAfter_encode cut).flatten

end

/-- The script ends with its lines and has nothing more to report, or it reports the bytes that it
stops before, by the number of their line. -/
structure Stops (file : String) (number : Nat) (others : List Bytes) (stop : Option Event) :
    Prop where
  ended : others = [] → stop = none
  undecodable : ∀ raw ∈ others.head?, ∃ fault, decode raw = .error fault ∧
    stop = some (.undecodable file number fault.message)

section

variable {file : String} {number : Nat} {others : List Bytes} {stop : Option Event}

theorem exists_stops (undecodable : ∀ raw ∈ others.head?, ∀ text, raw ≠ encode text)
    (file : String) (number : Nat) : ∃ stop, Stops file number others stop := by
  cases others with
  | nil => exact ⟨none, fun _ => rfl, nofun⟩
  | cons raw rest =>
    cases decoded : decode raw with
    | ok text => exact absurd (decode_eq_ok_iff.mp decoded) (undecodable raw rfl text)
    | error fault =>
      refine ⟨some (.undecodable file number fault.message), nofun, ?_⟩
      rintro _ ⟨⟩
      exact ⟨fault, decoded, rfl⟩

/-- Nothing of the other lines is run. -/
theorem Stops.runLines_eq (stops : Stops file number others stop) (m : Machine) :
    runLines file number others m = .ok () (m.noting stop) := by
  cases others with
  | nil =>
    rw [stops.ended rfl]
    rfl
  | cons raw rest =>
    obtain ⟨fault, decoded, rfl⟩ := stops.undecodable raw rfl
    rw [runLines, decoded]
    rfl

theorem Stops.warns (stops : Stops file number others stop) : ∀ e ∈ stop, e.level = .warning := by
  cases others with
  | nil =>
    rw [stops.ended rfl]
    nofun
  | cons raw rest =>
    obtain ⟨fault, -, rfl⟩ := stops.undecodable raw rfl
    rintro _ ⟨⟩
    rfl

end

section

variable {file : String} {number : Nat} {s : Session} {m m' : Machine} {line : String}
  {lines : List String} {stop : Option Event}

/-- A line that is run on its own in the session leaves the same machine as in a script, but for
what the script reports of it. -/
structure RanLine (s : Session) (line : String) (m : Machine) (seen : Observed Answer) : Prop where
  observed : s.observe (perform (.run line)) = seen
  report : seen.report = ⟨m.printed, m.events.toList⟩
  session : seen.session = ⟨m.reported, s.store⟩
  ready : m.Ready
  debugs : ∀ e ∈ seen.report.events, e.level = .debug
  blank : seen.result = .error (.source (.reading .emptyExpression)) ↔ FinalGap line.toList
  script : ∀ file number, runLine file number line s.machine =
    .ok () (m.noting (seen.complaint? file number))

theorem AtRest.ranLine (rest : s.AtRest) (countable : Token.Countable (Token.lex line.toList).1) :
    ∃ m seen, RanLine s line m seen := by
  have leads := leads_evaluateSource rest.ready line
  have debugs := rest.debugs line
  simp only [Leads, Ends, after] at leads debugs
  cases ended : evaluateSource line root s.machine with
  | ok v m =>
    rw [ended] at leads debugs
    have performed : perform (.run line) s = .ok (.value v) ⟨m, s.store⟩ :=
      bind_eq (by simp only [run, within, ended])
    have seen : s.observe (perform (.run line)) =
        ⟨.ok (.value v), ⟨m.printed, m.events.toList⟩, ⟨m.reported, s.store⟩⟩ := by
      rw [observe, performed]
      rfl
    refine ⟨m, _, seen, rfl, rfl, leads.1.ready rest.ready, debugs,
      ⟨fun failed => ?_, fun blank => ?_⟩, fun file number => ?_⟩
    · cases failed
    · rw [evaluateSource_unread (read_gap blank)] at ended
      cases ended
    · simp only [runLine, ended]
      rfl
  | error e m =>
    rw [ended] at leads debugs
    have mild := gravity_ne_fatal rest.ready countable ended
    have performed : perform (.run line) s = .error (.source e) ⟨m, s.store⟩ :=
      bind_eq_error (by simp only [run, within, ended])
    have seen : s.observe (perform (.run line)) =
        ⟨.error (.source e), ⟨m.printed, m.events.toList⟩, ⟨m.reported, s.store⟩⟩ := by
      rw [observe, performed]
      rfl
    refine ⟨m, _, seen, rfl, rfl, leads.ready rest.ready, debugs, ⟨?_, fun blank => ?_⟩,
      fun file number => runLine_complains ended mild file number⟩
    · rintro ⟨⟩
      exact finalGap_of_evaluateSource ended
    · rw [evaluateSource_unread (read_gap blank)] at ended
      cases ended
      rfl

/-- A script has run the lines from this number on, where each on its own begins in the session that
the one before has left, and has come to a stop. -/
structure RanLines (file : String) (number : Nat) (s : Session) (lines : List String)
    (stop : Option Event) (m : Machine) : Prop where
  session : ((performAll s (lines.map .run)).map (·.session)).getLastD s = ⟨m.reported, s.store⟩
  printed : m.printed = String.join ((performAll s (lines.map .run)).map (·.report.printed))
  events : m.events.toList = ((performAll s (lines.map .run)).zipIdx number).flatMap
    (fun a => a.1.report.events ++ (a.1.complaint? file a.2).toList) ++ stop.toList
  debugs : ∀ seen ∈ performAll s (lines.map .run), ∀ e ∈ seen.report.events, e.level = .debug
  blank : ∀ answered ∈ lines.zip (performAll s (lines.map .run)),
    answered.2.result = .error (.source (.reading .emptyExpression)) ↔ FinalGap answered.1.toList

theorem ranLines_nil (quiet : s.machine.reported = s.machine) (stop : Option Event) :
    RanLines file number s [] stop (s.machine.noting stop) := by
  obtain ⟨printed, events⟩ := quiet_report quiet
  refine ⟨?_, ?_, ?_, nofun, nofun⟩
  · rw [reported_noting, quiet]
    rfl
  · rw [printed_noting, printed]
    rfl
  · rw [events_noting, events]
    rfl

/-- One line more, before the others. -/
theorem RanLine.ranLines {seen : Observed Answer} (ran : RanLine s line m seen)
    (later : RanLines file (number + 1) seen.session lines stop m') :
    RanLines file number s (line :: lines) stop
      (m'.reporting (m.noting (seen.complaint? file number)).printed
        (m.noting (seen.complaint? file number)).events) := by
  have answers : performAll s ((line :: lines).map .run) =
      seen :: performAll seen.session (lines.map .run) := by
    rw [List.map_cons, performAll, ran.observed]
  refine ⟨?_, ?_, ?_, ?_, ?_⟩
  · rw [answers, List.map_cons, List.getLastD_cons, later.session, ran.session]
    rfl
  · rw [answers, List.map_cons, String.join_cons, ← later.printed, ran.report, printed_noting]
    rfl
  · rw [answers, List.zipIdx_cons, List.flatMap_cons, List.append_assoc, ← later.events, ran.report,
      ← events_noting, Machine.reporting, Array.toList_append]
  · rw [answers]
    exact List.forall_mem_cons.mpr ⟨ran.debugs, later.debugs⟩
  · rw [answers, List.zip_cons_cons]
    exact List.forall_mem_cons.mpr ⟨ran.blank, later.blank⟩

/-- The script runs its lines one after the other, and then comes to its stop. -/
theorem runLines_ran (rest : s.AtRest) {others : List Bytes}
    (countable : ∀ line ∈ lines, Token.Countable (Token.lex line.toList).1)
    (stops : Stops file (number + lines.length) others stop) :
    ∃ m, runLines file number (lines.map encode ++ others) s.machine = .ok () m ∧
      RanLines file number s lines stop m := by
  induction lines generalizing s number with
  | nil => exact ⟨_, stops.runLines_eq s.machine, ranLines_nil rest.quiet stop⟩
  | cons line lines ih =>
    obtain ⟨first, later⟩ := List.forall_mem_cons.mp countable
    obtain ⟨m, seen, ran⟩ := rest.ranLine first
    have rest' : seen.session.AtRest := by
      rw [ran.session]
      exact .reported ran.ready s.store
    rw [List.length_cons, Nat.add_comm lines.length, ← Nat.add_assoc] at stops
    obtain ⟨m', ranOn, ranLines⟩ := ih rest' later stops
    rw [ran.session] at ranOn
    exact ⟨_, runLines_cons (ran.script file number) ranOn, ran.ranLines ranLines⟩

theorem RanLines.warnings (ran : RanLines file number s lines stop m)
    (warns : ∀ e ∈ stop, e.level = .warning) :
    m.events.toList.filter (·.level = .warning) =
      ((performAll s (lines.map .run)).zipIdx number).filterMap (fun a => a.1.complaint? file a.2) ++
        stop.toList := by
  have last : stop.toList.filter (·.level = .warning) = stop.toList :=
    List.filter_eq_self.mpr fun e member => decide_eq_true (warns e (Option.mem_toList.mp member))
  have each : ∀ a ∈ (performAll s (lines.map .run)).zipIdx number,
      (a.1.report.events ++ (a.1.complaint? file a.2).toList).filter (·.level = .warning) =
        (a.1.complaint? file a.2).toList := fun a member =>
    (filter_noted (ran.debugs a.1 (List.fst_mem_of_mem_zipIdx member))
      (fun _ complains => (Observed.complaint?_warns complains).1) (by decide)).2
  rw [ran.events, List.filter_append, last, List.filter_flatMap, List.flatMap_congr each,
    List.filterMap_eq_flatMap_toList]

end

/-- A script runs its lines, which end after the byte of a line feed and nowhere else, up to the
first that is not UTF-8. What is seen of it is what is seen of the lines one by one, whether they
fail or not, and the session after it is the one after the last of them. It reports each line that
fails, unless there is nothing in it, by the number of the line, and then the line it has stopped
before, if there is one. In a script that is the encoding of a text there is none, and the lines are
those of the text. -/
theorem runFile_runs_leading_lines {s : Session} (rest : s.AtRest) {path : String} {bytes : Bytes}
    (stored : readFile (Path.normalize path) s = .ok bytes s) :
    (∃ lines others, Leading bytes lines others) ∧
    ∀ lines others, Leading bytes lines others →
      (∀ text, bytes = encode text ↔
        others = [] ∧ CutAfter '\n' text.toList (lines.map String.toList)) ∧
      ((∀ line ∈ lines, Token.Countable (Token.lex line.toList).1) →
        let file := s.observe (runFile path)
        let name := Path.name (Path.normalize path)
        let answers := performAll s (lines.map .run)
        file.result = .ok () ∧ file.session = (answers.map (·.session)).getLastD s ∧
        file.report.printed = String.join (answers.map (·.report.printed)) ∧
        (∀ answered ∈ lines.zip answers,
          answered.2.result = .error (.source (.reading .emptyExpression)) ↔
            FinalGap answered.1.toList) ∧
        ∃ stop, Stops name (lines.length + 1) others stop ∧
          file.report.events = .running (Path.normalize path) :: (answers.zipIdx 1).flatMap
            (fun a => a.1.report.events ++ (a.1.complaint? name a.2).toList) ++ stop.toList ∧
          file.report.atLevel .warning =
            (answers.zipIdx 1).filterMap (fun a => a.1.complaint? name a.2) ++ stop.toList) := by
  refine ⟨exists_leading bytes, fun lines others leading => ⟨leading.eq_encode_iff, ?_⟩⟩
  intro countable file name answers
  obtain ⟨stop, stops⟩ := exists_stops leading.undecodable name (lines.length + 1)
  obtain ⟨m, ran, ranLines⟩ := runLines_ran rest countable (Nat.add_comm _ 1 ▸ stops)
  rw [← leading.cut.splitLines_eq] at ran
  have seen : file = ⟨.ok (), ⟨m.printed, .running (Path.normalize path) :: m.events.toList⟩,
      ⟨m.reported, s.store⟩⟩ := observe_runFile rest.quiet stored ran
  have note : Level.info ≠ .warning := by decide
  refine ⟨by rw [seen], ?_, ?_, ranLines.blank, stop, stops, ?_, ?_⟩
  · rw [seen]
    exact ranLines.session.symm
  · rw [seen]
    exact ranLines.printed
  · rw [seen, ranLines.events]
    rfl
  · rw [seen, Report.atLevel, List.filter_cons_of_neg]
    · exact ranLines.warnings stops.warns
    · exact fun same => note (of_decide_eq_true same)

/-- A definition, a line feed alone, a comment that goes on after other separators of lines, a call
that fails after it has printed, a string that is not closed, a line that is not UTF-8, and a second
definition. -/
theorem runFile_runs_leading_lines_stopping :
    let lines := ["(define x 1)\n", "\n", "; \x0d\u2028Ċ (print 2)\n",
      "(car (begin (print \"é\") x))\r\n", "\"a\n"]
    let others := [[0x28, 0xE2, 0x80, 0x0A], encode "(define x 2)"]
    let bytes := encode (String.join lines) ++ others.flatten
    let s : Session := ⟨{ Machine.initial with seed := 1 }, ⟨[(⟨some 0, ["f"]⟩, bytes)], []⟩⟩
    let file := s.observe (runFile "./f")
    let answers := performAll s (lines.map .run)
    s.AtRest ∧ readFile (Path.normalize "./f") s = .ok bytes s ∧ Leading bytes lines others ∧
    (∀ line ∈ lines, Token.Countable (Token.lex line.toList).1) ∧ (∀ text, bytes ≠ encode text) ∧
    file.result = .ok () ∧ file.session = (answers.map (·.session)).getLastD s ∧
    file.report.printed = "é\n" ∧
    (file.report.atLevel .warning).map Event.line? = [some 4, some 5, some 6] := by
  intro lines others bytes s file answers
  have rest : s.AtRest := Reachable.atRest ⟨_, .warning, 1, .refl⟩
  have normal : Path.normalize "./f" = "f" := by cbv
  have stored : readFile (Path.normalize "./f") s = .ok bytes s := by
    rw [normal]
    exact readFile_eq_ok.mpr ⟨by decide, by cbv⟩
  have leading : Leading bytes lines others := by
    refine ⟨splitLines_eq_iff.mp (by decide +kernel), ?_⟩
    rintro _ ⟨⟩ text encoded
    cases (decode_eq_ok_iff.mpr encoded)
  have countable : ∀ line ∈ lines, Token.Countable (Token.lex line.toList).1 := by decide +kernel
  obtain ⟨-, ran⟩ := runFile_runs_leading_lines rest stored
  obtain ⟨whole, ran⟩ := ran lines others leading
  obtain ⟨result, session, printed, -, stop, stops, -, warnings⟩ := ran countable
  obtain ⟨fault, -, rfl⟩ := stops.undecodable _ rfl
  refine ⟨rest, stored, leading, countable, fun text encoded => ?_, result, session, ?_, ?_⟩
  · exact List.cons_ne_nil _ _ ((whole text).mp encoded).1
  · exact printed.trans (by decide +kernel)
  · have numbered : ((answers.zipIdx 1).filterMap fun a =>
        a.1.complaint? (Path.name (Path.normalize "./f")) a.2).map Event.line? = [some 4, some 5] := by
      decide +kernel
    rw [warnings, List.map_append, numbered]
    rfl

end Session

end SmallLisp
