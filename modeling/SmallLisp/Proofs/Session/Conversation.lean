import SmallLisp.Proofs.Session.Drivers

/-! A whole run of the prompt. Each input is answered in the session that the one before has left,
whether that one failed or not, up to the end of input. Only one thing cuts a run short: to save
bindings to a file that nest deeper than a text may. -/
namespace SmallLisp

open Session Heap

/-- No file has a name with a zero character in it. -/
structure Repl.Nameable (r : Repl) : Prop where
  script : ∀ path ∈ r.script, '\x00' ∉ (Path.normalize path).toList
  history : ∀ path ∈ r.history, '\x00' ∉ path.toList

namespace Input

/-- A line with nothing in it to read. -/
def Blank : Input → Prop
  | .line text => FinalGap text.toList
  | .interrupt => False

/-- All integers in the line can be counted out. -/
def Countable : Input → Prop
  | .line text => Token.Countable (Token.lex text.toList).1
  | .interrupt => True

/-- A line that cannot be read, or whose evaluation fails, leaves the machine `m'`. -/
def Fails (m : Machine) : Input → Machine → Prop
  | .line text, m' => ¬ Repl.IsCommand text ∧
    ∃ e, evaluateSource text root m = .error e m' ∧ e ≠ .reading .emptyExpression
  | .interrupt, _ => False

/-- A line evaluates to the value, and leaves the machine `m'`. -/
def Gives (m : Machine) (input : Input) (v : Value) (m' : Machine) : Prop :=
  match input with
  | .line text => ¬ Repl.IsCommand text ∧ evaluateSource text root m = .ok v m'
  | .interrupt => False

/-- A line fails, or it has a value that there is no room to display. -/
def Refused (m : Machine) (input : Input) (m' : Machine) : Prop :=
  input.Fails m m' ∨ ∃ v, input.Gives m v m' ∧ ¬ v.Writable

theorem not_refused {m : Machine} {input : Input} (fails : ∀ m', ¬ input.Fails m m')
    (gives : ∀ v m', ¬ input.Gives m v m') (m' : Machine) : ¬ input.Refused m m' := by
  rintro (failed | ⟨v, given, -⟩)
  · exact fails m' failed
  · exact gives v m' given

end Input

namespace Session

variable {r : Repl} {s : Session} {m m' : Machine} {store : Store} {note : Option Event}

/-- The input is answered with a text or with none, and the session goes on. -/
structure Answered (r : Repl) (s : Session) (input : Input) (seen : Observed (Option String)) :
    Prop where
  response : seen = s.observe (r.respond input)
  atRest : seen.session.AtRest
  answered : ∃ answer, seen.result = .ok answer
  silent : seen.result = .ok none ↔ input.Blank ∨ ∃ m', input.Refused s.machine m'
  refused : ∀ m', input.Refused s.machine m' →
    (seen.report.atLevel .error).length = 1 ∧ seen.session = ⟨m'.reported, s.store⟩
  fine : (∀ m', ¬ input.Refused s.machine m') → seen.report.atLevel .error = []
  displayed : ∀ v m', input.Gives s.machine v m' → v.Writable →
    seen.result = .ok (some v.display) ∧ seen.session = ⟨m'.reported, s.store⟩
  interrupted : input = .interrupt → seen.result = .ok (some "^C") ∧ seen.session = s

/-- There is a file to save to, but a binding nests too deep to be written. -/
structure CutOff (r : Repl) (s : Session) (input : Input) (seen : Observed (Option String)) :
    Prop where
  saves : input = .line ">save"
  script : r.script.isSome
  unwritable : ∃ d ∈ s.machine.heap.bindings root, ¬ Writable d
  failure : seen.result = .error (.source (.evaluation .tooDeep))

theorem observe_noting {α : Type} {x : Working α} {a : α}
    (ended : x s = .ok a ⟨m'.noting note, store⟩) :
    s.observe x = ⟨.ok a, ⟨m'.printed, m'.events.toList ++ note.toList⟩, ⟨m'.reported, store⟩⟩ := by
  rw [observe, ended, ← events_noting, ← printed_noting m' note, ← reported_noting m' note]
  rfl

theorem observe_failed {α : Type} {x : Working α} {e : SessionError} {s' : Session}
    (ended : x s = .error e s') : (s.observe x).result = .error e := by
  rw [observe, ended]

theorem AtRest.reported (ready : m.Ready) (store : Store) : AtRest ⟨m.reported, store⟩ :=
  ⟨ready.reported, rfl⟩

/-- An input that is shown a text, and neither is blank nor refused. -/
theorem AtRest.answered (rest : s.AtRest) {input : Input} {text : String}
    (ended : r.respond input s = .ok (some text) ⟨m'.noting note, store⟩) (ready : m'.Ready)
    (mild : ∀ e ∈ m'.events.toList ++ note.toList, e.level ≠ .error) (solid : ¬ input.Blank)
    (fine : ∀ m₁, ¬ input.Refused s.machine m₁)
    (gives : ∀ v m₁, input.Gives s.machine v m₁ → text = v.display ∧ m' = m₁ ∧ store = s.store)
    (interrupted : input = .interrupt → text = "^C" ∧ m' = s.machine ∧ store = s.store) :
    Answered r s input (s.observe (r.respond input)) := by
  have seen := observe_noting ended
  refine ⟨rfl, ?_, ?_, ?_, fun m₁ failed => absurd failed (fine m₁), fun _ => ?_,
    fun v m₁ given _ => ?_, fun same => ?_⟩
  · rw [seen]
    exact .reported ready store
  · exact ⟨some text, by rw [seen]⟩
  · rw [seen]
    refine ⟨nofun, ?_⟩
    rintro (blank | ⟨m₁, failed⟩)
    · exact absurd blank solid
    · exact absurd failed (fine m₁)
  · rw [seen, Report.atLevel, List.filter_eq_nil_iff]
    exact fun e member => by simpa using mild e member
  · obtain ⟨rfl, rfl, rfl⟩ := gives v m₁ given
    rw [seen]
    exact ⟨rfl, rfl⟩
  · obtain ⟨rfl, rfl, rfl⟩ := interrupted same
    rw [seen, rest.quiet]
    exact ⟨rfl, rfl⟩

theorem AtRest.answered_untouched (rest : s.AtRest) {input : Input} {text : String}
    (ended : r.respond input s = .ok (some text) ⟨s.machine.noting note, store⟩)
    (levels : ∀ e ∈ note, e.level ≠ .error) (solid : ¬ input.Blank)
    (fails : ∀ m₁, ¬ input.Fails s.machine m₁) (gives : ∀ v m₁, ¬ input.Gives s.machine v m₁)
    (interrupted : input = .interrupt → text = "^C" ∧ store = s.store) :
    Answered r s input (s.observe (r.respond input)) := by
  refine rest.answered ended rest.ready ?_ solid (Input.not_refused fails gives)
    (fun v m₁ given => absurd given (gives v m₁)) fun same =>
      ⟨(interrupted same).1, rfl, (interrupted same).2⟩
  rw [(quiet_report rest.quiet).2]
  exact fun e member => levels e (by simpa using member)

theorem gravity_eq_nothing_iff (e : SourceError) :
    e.gravity = .nothing ↔ e = .reading .emptyExpression := by
  cases e with
  | reading e => cases e <;> simp [SourceError.gravity]
  | evaluation e => cases e <;> simp [SourceError.gravity]

/-- Nothing that a snippet does ends the session if its integers can be counted out. -/
theorem gravity_ne_fatal (ready : m.Ready) {source : String}
    (countable : Token.Countable (Token.lex source.toList).1) {e : SourceError}
    (failed : evaluateSource source root m = .error e m') : e.gravity ≠ .fatal := by
  cases made : read source with
  | error fault =>
    rw [evaluateSource_unread made] at failed
    cases failed
    cases fault with
    | tooManyDigits n => exact absurd made (read_ne_tooManyDigits countable n)
    | _ => nofun
  | ok expr =>
    have outcome := evaluateSource_read made m
    rw [failed] at outcome
    cases ended : Eval.evaluate expr root m with
    | ok v m' => rw [ended] at outcome; cases outcome
    | error fault m' =>
      rw [ended] at outcome
      cases outcome
      rw [gravity_evaluate ready made ended]
      nofun

theorem finalGap_of_evaluateSource {source : String}
    (failed : evaluateSource source root m = .error (.reading .emptyExpression) m') :
    FinalGap source.toList := by
  cases made : read source with
  | error fault =>
    rw [evaluateSource_unread made] at failed
    cases failed
    exact finalGap_of_read made
  | ok expr =>
    rw [evaluateSource_read made] at failed
    split at failed <;> cases failed

/-- All that the evaluation of a snippet logs is for debugging. -/
theorem AtRest.debugs (rest : s.AtRest) (source : String) :
    ∀ e ∈ (after (evaluateSource source root) s.machine).events.toList, e.level = .debug := by
  intro e member
  have each := debugs_evaluateSource source root s.machine e (Array.mem_toList_iff.mp member)
  simpa [(quiet_report rest.quiet).2] using each

theorem AtRest.answered_value (rest : s.AtRest) {line : String} {v : Value}
    (plain : ¬ Repl.IsCommand line) (ended : evaluateSource line root s.machine = .ok v m')
    (room : v.Writable) : Answered r s (.line line) (s.observe (r.respond (.line line))) := by
  have leads := leads_evaluateSource rest.ready line
  have debugs := rest.debugs line
  simp only [Leads, Ends, after, ended] at leads debugs
  have displayed := display_of_value ended leads.2.foreign?_eq_none s.store
  rw [if_pos room] at displayed
  have shown : r.respond (.line line) s = .ok (some v.display) ⟨m'.noting none, s.store⟩ := by
    rw [Repl.respond, handleLine_evaluates plain]
    exact evaluate_of_display displayed
  refine rest.answered shown (leads.1.ready rest.ready) ?_ ?_ ?_ ?_ fun same => by cases same
  · intro e member
    rw [debugs e (by simpa using member)]
    decide
  · intro blank
    rw [evaluateSource_unread (read_gap blank)] at ended
    cases ended
  · rintro m₁ (⟨-, e, failed, -⟩ | ⟨w, ⟨-, given⟩, deep⟩)
    · rw [ended] at failed
      cases failed
    · rw [ended] at given
      cases given
      exact deep room
  · rintro w m₁ ⟨-, given⟩
    rw [ended] at given
    cases given
    exact ⟨rfl, rfl, rfl⟩

/-- A line that is shown no text. Either there is nothing in it, or it is refused. -/
theorem answered_silence {line : String} {e : SourceError}
    (plain : ¬ Repl.IsCommand line) (ready : m'.Ready)
    (debugs : ∀ event ∈ m'.events.toList, event.level = .debug)
    (failed : Repl.display line s = .error (.source e) ⟨m', s.store⟩) (mild : e.gravity ≠ .fatal)
    (nothing : e = .reading .emptyExpression → (Input.line line).Blank)
    (refusal : ∀ m₁, (Input.line line).Refused s.machine m₁ ↔
      m₁ = m' ∧ e ≠ .reading .emptyExpression)
    (hidden : ∀ v m₁, (Input.line line).Gives s.machine v m₁ → ¬ v.Writable) :
    Answered r s (.line line) (s.observe (r.respond (.line line))) := by
  obtain ⟨report, refuses, refused, silent⟩ := evaluate_refused failed mild
  have shown : r.respond (.line line) s = .ok none ⟨m'.noting report, s.store⟩ := by
    rw [Repl.respond, handleLine_evaluates plain]
    exact silent
  have seen := observe_noting shown
  have errors : (s.observe (r.respond (.line line))).report.atLevel .error = report.toList := by
    rw [seen]
    exact (filter_noted debugs refused (by decide)).2
  rw [ne_eq, gravity_eq_nothing_iff] at refuses
  refine ⟨rfl, ?_, ?_, ?_, fun m₁ out => ?_, fun fine => ?_,
    fun v m₁ given room => absurd room (hidden v m₁ given), fun same => by cases same⟩
  · rw [seen]
    exact .reported ready s.store
  · exact ⟨none, by rw [seen]⟩
  · refine ⟨fun _ => ?_, fun _ => by rw [seen]⟩
    by_cases empty : e = .reading .emptyExpression
    · exact .inl (nothing empty)
    · exact .inr ⟨m', (refusal m').mpr ⟨rfl, empty⟩⟩
  · obtain ⟨rfl, faulty⟩ := (refusal m₁).mp out
    obtain ⟨event, rfl⟩ := Option.isSome_iff_exists.mp (refuses.mpr faulty)
    rw [errors, seen]
    exact ⟨rfl, rfl⟩
  · have unlogged : report = none := by
      rw [← Option.not_isSome_iff_eq_none, refuses, not_not]
      by_contra faulty
      exact fine m' ((refusal m').mpr ⟨rfl, faulty⟩)
    rw [errors, unlogged]
    rfl

theorem AtRest.answered_failure (rest : s.AtRest) {line : String} {e : SourceError}
    (plain : ¬ Repl.IsCommand line) (countable : Token.Countable (Token.lex line.toList).1)
    (ended : evaluateSource line root s.machine = .error e m') :
    Answered r s (.line line) (s.observe (r.respond (.line line))) := by
  have leads := leads_evaluateSource rest.ready line
  have debugs := rest.debugs line
  simp only [Leads, Ends, after, ended] at leads debugs
  refine answered_silence plain (leads.ready rest.ready) debugs
    (display_of_failed ended s.store) (gravity_ne_fatal rest.ready countable ended) ?_
    (fun m₁ => ⟨?_, ?_⟩) ?_
  · rintro rfl
    exact finalGap_of_evaluateSource ended
  · rintro (⟨-, e', failed, faulty⟩ | ⟨v, ⟨-, given⟩, -⟩)
    · rw [ended] at failed
      cases failed
      exact ⟨rfl, faulty⟩
    · rw [ended] at given
      cases given
  · rintro ⟨rfl, faulty⟩
    exact .inl ⟨plain, e, ended, faulty⟩
  · rintro v m₁ ⟨-, given⟩
    rw [ended] at given
    cases given

theorem AtRest.answered_undisplayed (rest : s.AtRest) {line : String} {v : Value}
    (plain : ¬ Repl.IsCommand line) (ended : evaluateSource line root s.machine = .ok v m')
    (deep : ¬ v.Writable) : Answered r s (.line line) (s.observe (r.respond (.line line))) := by
  have leads := leads_evaluateSource rest.ready line
  have debugs := rest.debugs line
  simp only [Leads, Ends, after, ended] at leads debugs
  have failed := display_of_value ended leads.2.foreign?_eq_none s.store
  rw [if_neg deep] at failed
  refine answered_silence plain (leads.1.ready rest.ready) debugs failed (by decide)
    (fun same => by cases same) (fun m₁ => ⟨?_, ?_⟩) ?_
  · rintro (⟨-, e, failed, -⟩ | ⟨w, ⟨-, given⟩, -⟩)
    · rw [ended] at failed
      cases failed
    · rw [ended] at given
      cases given
      exact ⟨rfl, by decide⟩
  · rintro ⟨rfl, -⟩
    exact .inr ⟨v, ⟨plain, ended⟩, deep⟩
  · rintro w m₁ ⟨-, given⟩
    rw [ended] at given
    cases given
    exact deep

/-- The store refuses the file, or takes what can be written of the bindings. -/
theorem save_eq {path : String} (named : '\x00' ∉ (Path.normalize path).toList) (s : Session) :
    Session.save path s =
      match s.store.write (Path.normalize path) (Text.Utf8.encode
        (script ((s.machine.heap.bindings root).takeWhile fun d => Writable d))) with
      | .error fault => .error (.store ⟨fault, Path.normalize path⟩) s
      | .ok store =>
        if (s.machine.heap.bindings root).all fun d => Writable d then
          .ok () ⟨s.machine.noting (some (.saved (s.machine.heap.bindings root).length
            (Path.normalize path))), store⟩
        else .error (.source (.evaluation .tooDeep)) ⟨s.machine, store⟩ := by
  have wrote := writeFile_eq (s := s) named (Text.Utf8.encode
    (script ((s.machine.heap.bindings root).takeWhile fun d => Writable d)))
  rw [save, get_bind]
  split at wrote
  · next store taken =>
    rw [taken, bind_eq wrote]
    dsimp only
    split <;> rfl
  · next fault taken =>
    rw [taken]
    exact bind_eq_error wrote

theorem save_ends {path : String} (named : '\x00' ∉ (Path.normalize path).toList) (s : Session) :
    (∃ note store, Repl.save path s = .ok "" ⟨s.machine.noting note, store⟩ ∧
      ∀ e ∈ note, e.level ≠ .error) ∨
    (∃ s', Repl.save path s = .error (.source (.evaluation .tooDeep)) s') ∧
      ∃ d ∈ s.machine.heap.bindings root, ¬ Writable d := by
  have saved := save_eq named s
  simp only [Repl.save]
  split at saved
  · next fault _ =>
    rw [saved]
    refine .inl ⟨some (.storage (StoreError.message ⟨fault, Path.normalize path⟩)), s.store, rfl,
      ?_⟩
    rintro _ ⟨⟩
    nofun
  · next store _ =>
    split at saved
    · rw [saved]
      refine .inl ⟨_, store, rfl, ?_⟩
      rintro _ ⟨⟩
      nofun
    · next deep =>
      rw [saved]
      refine .inr ⟨⟨_, rfl⟩, ?_⟩
      simpa using deep

theorem command_ends (named : r.Nameable) (text : String) (s : Session) :
    (∃ shown note store, r.command text s = .ok shown ⟨s.machine.noting note, store⟩ ∧
      ∀ e ∈ note, e.level ≠ .error) ∨
    text = "save" ∧ r.script.isSome ∧
      (∃ s', r.command text s = .error (.source (.evaluation .tooDeep)) s') ∧
      ∃ d ∈ s.machine.heap.bindings root, ¬ Writable d := by
  rw [Repl.command]
  split
  · exact .inl ⟨_, none, s.store, rfl, nofun⟩
  · split
    · next saves =>
      cases script : r.script with
      | none => exact .inl ⟨_, none, s.store, rfl, nofun⟩
      | some path =>
        rcases save_ends (named.script path script) s with ⟨note, store, saved⟩ | deep
        · exact .inl ⟨"", note, store, saved⟩
        · exact .inr ⟨saves, rfl, deep⟩
    · exact .inl ⟨_, none, s.store, rfl, nofun⟩

theorem respond_command {line : String} {text : List Char}
    (marked : line.toList = Repl.commandMark :: text) (nonempty : text ≠ []) (s : Session) :
    r.respond (.line line) s =
      (do return some (← r.command (String.ofList text)) : Working (Option String)) s := by
  rw [Repl.respond, Repl.handleLine, marked]
  exact congrFun (if_pos ⟨rfl, by simpa using nonempty⟩) s

theorem AtRest.answered_command (rest : s.AtRest) (named : r.Nameable) {line : String}
    (command : Repl.IsCommand line) :
    Answered r s (.line line) (s.observe (r.respond (.line line))) ∨
      CutOff r s (.line line) (s.observe (r.respond (.line line))) := by
  obtain ⟨mark, more⟩ := command
  rw [← String.length_toList] at more
  obtain ⟨c, text, same⟩ : ∃ c text, line.toList = c :: text := by
    cases same : line.toList with
    | nil => rw [same] at mark; cases mark
    | cons c text => exact ⟨c, text, rfl⟩
  have first : c = Repl.commandMark := by
    rw [same] at mark
    exact Option.some.inj mark
  have nonempty : text ≠ [] := by
    rintro rfl
    rw [same] at more
    cases Nat.lt_irrefl 1 more
  have handled := respond_command (r := r) (same.trans (by rw [first])) nonempty s
  rcases command_ends named (String.ofList text) s with
    ⟨shown, note, store, ended, levels⟩ | ⟨saves, script, ⟨s', failed⟩, deep⟩
  · have shown := handled.trans ((bind_eq ended).trans rfl)
    have called : Repl.IsCommand line := ⟨mark, by rwa [← String.length_toList]⟩
    refine .inl (rest.answered_untouched shown levels ?_ ?_ ?_ nofun)
    · intro blank
      have skipped := Token.skipGap_eq_nil blank
      rw [same, first, Token.skipGap_cons (by decide) (by decide)] at skipped
      cases skipped
    · exact fun m' failed => failed.1 called
    · exact fun v m' given => given.1 called
  · refine .inr ⟨?_, script, deep, observe_failed (handled.trans (bind_eq_error failed))⟩
    have whole : line = ">save" := by
      rw [← String.toList_inj, same, first, ← String.toList_ofList (l := text), saves]
      rfl
    rw [whole]

theorem AtRest.responds (rest : s.AtRest) (named : r.Nameable) {input : Input}
    (countable : input.Countable) :
    Answered r s input (s.observe (r.respond input)) ∨
      CutOff r s input (s.observe (r.respond input)) := by
  cases input with
  | interrupt =>
    have shown : r.respond .interrupt s = .ok (some "^C") ⟨s.machine.noting none, s.store⟩ := rfl
    exact .inl (rest.answered_untouched shown nofun id (fun _ => id) (fun _ _ => id)
      fun _ => ⟨rfl, rfl⟩)
  | line text =>
    by_cases command : Repl.IsCommand text
    · exact rest.answered_command named command
    · cases ended : evaluateSource text root s.machine with
      | ok v m' =>
        by_cases room : v.Writable
        · exact .inl (rest.answered_value command ended room)
        · exact .inl (rest.answered_undisplayed command ended room)
      | error e m' => exact .inl (rest.answered_failure command countable ended)

/-- The inputs from this session on are answered one by one up to the end of input, unless one of
them is the last that is seen. -/
inductive Converses (r : Repl) (entries : List Bytes) :
    Session → List Input → List (Observed (Option String)) → Prop where
  | closed {s : Session} {seen : Observed (Option String)} : seen = s.observe (r.close entries) →
      seen.result = .ok (some "^D") → seen.session.AtRest → Converses r entries s [] [seen]
  | next {s : Session} {input : Input} {inputs : List Input} {seen : Observed (Option String)}
      {answers : List (Observed (Option String))} : Answered r s input seen →
      Converses r entries seen.session inputs answers →
      Converses r entries s (input :: inputs) (seen :: answers)
  | cutOff {s : Session} {input : Input} {inputs : List Input} {seen : Observed (Option String)} :
      CutOff r s input seen → Converses r entries s (input :: inputs) [seen]

theorem saveHistory_ends (named : r.Nameable) (entries : List Bytes) (s : Session) :
    ∃ note store, r.saveHistory entries s = .ok () ⟨s.machine.noting note, store⟩ := by
  rw [Repl.saveHistory]
  cases history : r.history with
  | none => exact ⟨none, s.store, rfl⟩
  | some path =>
    simp only [writeFile_eq (named.history path history)]
    cases s.store.write path (entries.flatMap (· ++ [lineFeed])) with
    | ok store => exact ⟨none, store, rfl⟩
    | error fault => exact ⟨some (.historyUnsaved fault.message), s.store, rfl⟩

theorem loadHistory_ends (named : r.Nameable) (s : Session) :
    ∃ entries note, r.loadHistory s = .ok entries ⟨s.machine.noting note, s.store⟩ := by
  rw [Repl.loadHistory]
  cases history : r.history with
  | none => exact ⟨[], none, rfl⟩
  | some path =>
    simp only [readFile, withFile_eq (named.history path history)]
    cases s.store.read path with
    | ok bytes => exact ⟨_, none, rfl⟩
    | error fault => exact ⟨[], some _, rfl⟩

theorem AtRest.converses (rest : s.AtRest) (named : r.Nameable) (entries : List Bytes)
    {inputs : List Input} (countable : ∀ input ∈ inputs, input.Countable) :
    Converses r entries s inputs (r.respondAll entries s inputs) := by
  induction inputs generalizing s with
  | nil =>
    obtain ⟨note, store, saved⟩ := saveHistory_ends named entries s
    have ended : r.close entries s = .ok (some "^D") ⟨s.machine.noting note, store⟩ :=
      (bind_eq saved).trans rfl
    have seen := observe_noting ended
    refine .closed rfl ?_ ?_
    · rw [seen]
    · rw [seen]
      exact .reported rest.ready store
  | cons input inputs ih =>
    obtain ⟨first, others⟩ := List.forall_mem_cons.mp countable
    rw [Repl.respondAll]
    rcases rest.responds named first with answered | cutOff
    · obtain ⟨answer, ended⟩ := answered.answered
      simp only [ended]
      exact .next answered (ih answered.atRest others)
    · simp only [cutOff.failure]
      exact .cutOff cutOff

/-- A run begins with the session as it is, and answers the inputs. -/
def Conversation (r : Repl) (s : Session) (inputs : List Input) : Prop :=
  ∃ entries, (r.run inputs s).start.result = .ok entries ∧ (r.run inputs s).start.session = s ∧
    Converses r entries s inputs (r.run inputs s).answers

theorem AtRest.conversation (rest : s.AtRest) (named : r.Nameable) {inputs : List Input}
    (countable : ∀ input ∈ inputs, input.Countable) : Conversation r s inputs := by
  obtain ⟨entries, note, loaded⟩ := loadHistory_ends named s
  have start := observe_noting loaded
  rw [rest.quiet] at start
  refine ⟨entries, ?_, ?_, ?_⟩
  · simp only [Repl.run, start]
  · simp only [Repl.run, start]
  · simp only [Repl.run, start]
    exact rest.converses named entries countable

/-- A script ends with its lines, or before the first that is not UTF-8. -/
theorem runLines_ends (ready : m.Ready) (file : String) (number : Nat) {lines : List Bytes}
    (countable : ∀ line ∈ lines.filterMap fun raw => (Text.Utf8.decode raw).toOption,
      Token.Countable (Token.lex line.toList).1) :
    ∃ m', runLines file number lines m = .ok () m' ∧ m.Extends IsName m' := by
  induction lines generalizing m number with
  | nil => exact ⟨m, rfl, .refl ready.sound⟩
  | cons raw rest ih =>
    cases decoded : Text.Utf8.decode raw with
    | error fault =>
      simp only [runLines, decoded]
      exact ⟨_, rfl, .of_heap_eq ready.sound rfl⟩
    | ok line =>
      have read : (Text.Utf8.decode raw).toOption = some line := by
        rw [decoded]
        rfl
      simp only [List.filterMap_cons, read] at countable
      obtain ⟨first, others⟩ := List.forall_mem_cons.mp countable
      have leads := leads_runLine ready file number line
      simp only [Leads, Ends] at leads
      obtain ⟨m₁, ran⟩ : ∃ m₁, runLine file number line m = .ok () m₁ := by
        cases ended : evaluateSource line root m with
        | ok v m₁ => exact ⟨m₁, by simp only [runLine, ended]⟩
        | error e m₁ =>
          obtain ⟨warning, -, -, ran⟩ :=
            runLine_failed ended (gravity_ne_fatal ready first ended) file number
          exact ⟨_, ran⟩
      rw [ran] at leads
      obtain ⟨m₂, ranOn, later⟩ := ih (leads.1.ready ready) (number + 1) others
      simp only [runLines, decoded]
      exact ⟨m₂, (bind_eq ran).trans ranOn, leads.1.trans later⟩

/-- The prompt answers each input in the session that the one before left, an interrupt with `^C`
and a line with one text or none: none just for a line that is blank, that fails or whose value
nests too deep to be displayed, where the last two are logged as one error. The end of input is
answered with `^D`. All that can end a run before is to save a binding that nests too deep to be
written. It is no different after a script. -/
theorem run_answers_each_input (r : Repl) (named : r.Nameable) {s : Session} (rest : s.AtRest)
    {inputs : List Input} (countable : ∀ input ∈ inputs, input.Countable) :
    Conversation r s inputs ∧
    ∀ path bytes, readFile (Path.normalize path) s = .ok bytes s →
      (∀ line ∈ (splitLines bytes).filterMap fun raw => (Text.Utf8.decode raw).toOption,
        Token.Countable (Token.lex line.toList).1) →
      (s.observe (runFile path)).result = .ok () ∧
      Conversation r (s.observe (runFile path)).session inputs := by
  refine ⟨rest.conversation named countable, fun path bytes stored lines => ?_⟩
  obtain ⟨m', ran, extends'⟩ := runLines_ends rest.ready (Path.name (Path.normalize path)) 1 lines
  rw [observe_runFile rest.quiet stored ran]
  have loaded : AtRest ⟨m'.reported, s.store⟩ := .reported (extends'.ready rest.ready) s.store
  exact ⟨rfl, loaded.conversation named countable⟩

/-- A call that fails after a script whose last line fails, an interrupt, a comment, and a command
that there is no file for. -/
theorem run_answers_each_input_failing :
    let r : Repl := ⟨none, none⟩
    let bytes := Text.Utf8.encode "(define x 1)\n(car x)"
    let s : Session := ⟨{ Machine.initial with seed := 1 }, ⟨[(⟨some 0, ["f"]⟩, bytes)], []⟩⟩
    let inputs := [.line "(car (define x 2))", .interrupt, .line "; x", .line ">save", .line "x"]
    let file := s.observe (runFile "f")
    r.Nameable ∧ s.AtRest ∧ (∀ input ∈ inputs, input.Countable) ∧
    readFile (Path.normalize "f") s = .ok bytes s ∧ Conversation r s inputs ∧
    (r.run inputs s).answers.map (·.result.toOption) =
      [some none, some (some "^C"), some none, some (some "no initfile set."), some (some "2"),
        some (some "^D")] ∧
    file.result = .ok () ∧ Conversation r file.session inputs := by
  intro r bytes s inputs file
  have named : r.Nameable := ⟨nofun, nofun⟩
  have rest : s.AtRest := Reachable.atRest ⟨_, .warning, 1, .refl⟩
  have countable : ∀ input ∈ inputs, input.Countable := by
    have each : ∀ line ∈ ["(car (define x 2))", "; x", ">save", "x"],
        Token.Countable (Token.lex line.toList).1 := by decide +kernel
    simp only [List.forall_mem_cons] at each
    obtain ⟨call, comment, command, name, -⟩ := each
    intro input member
    simp only [inputs, List.mem_cons, List.not_mem_nil, or_false] at member
    rcases member with rfl | rfl | rfl | rfl | rfl
    · exact call
    · exact trivial
    · exact comment
    · exact command
    · exact name
  have normal : Path.normalize "f" = "f" := by cbv
  have stored : readFile (Path.normalize "f") s = .ok bytes s := by
    rw [normal]
    exact readFile_eq_ok.mpr ⟨by decide, by cbv⟩
  have lines : ∀ line ∈ (splitLines bytes).filterMap fun raw => (Text.Utf8.decode raw).toOption,
      Token.Countable (Token.lex line.toList).1 := by decide +kernel
  obtain ⟨conversation, loaded⟩ := run_answers_each_input r named rest countable
  obtain ⟨result, later⟩ := loaded "f" bytes stored lines
  exact ⟨named, rest, countable, stored, conversation, by decide +kernel, result, later⟩

/-- The value has been bound, but it cannot be saved, and the line after that is not read. -/
theorem run_cut_off_by_save :
    let r : Repl := ⟨some "f", none⟩
    let s := ofNested .empty Value.depthLimit
    r.Nameable ∧ s.Reachable ∧ (Input.line ">save").Countable ∧ (Input.line "1").Countable ∧
    (r.run [.line ">save", .line "1"] s).answers.map (·.result) =
      [.error (.source (.evaluation .tooDeep))] := by
  intro r s
  have normal : Path.normalize "f" = "f" := by cbv
  have named : r.Nameable := ⟨by rintro _ ⟨⟩; rw [normal]; decide, by rintro _ ⟨⟩⟩
  have bound : s.machine.heap.bindings root = [("x", Value.nested Value.depthLimit)] := rfl
  have deep : ¬ Writable ("x", Value.nested Value.depthLimit) := by
    exact Value.not_writable_nested
  have taken (bytes : Bytes) : s.store.write (Path.normalize "f") bytes =
      .ok ⟨[(⟨some 0, ["f"]⟩, bytes)], []⟩ := by
    rw [normal]
    cbv
  have saved := save_eq (named.script "f" rfl) s
  simp only [taken, bound, List.all_cons, deep, decide_false, Bool.false_and] at saved
  have marked : ">save".toList = Repl.commandMark :: ['s', 'a', 'v', 'e'] := rfl
  have handled := respond_command (r := r) marked (List.cons_ne_nil _ _) s
  have command : r.command "save" s = Repl.save "f" s := rfl
  have failed : r.respond (.line ">save") s = .error (.source (.evaluation .tooDeep)) _ :=
    handled.trans (bind_eq_error (by rw [command, Repl.save, saved]; rfl))
  have countable : ∀ line ∈ [">save", "1"], Token.Countable (Token.lex line.toList).1 := by
    decide +kernel
  obtain ⟨save, number, -⟩ := by simpa only [List.forall_mem_cons] using countable
  refine ⟨named, reachable_ofNested _ .warning _, save, number, ?_⟩
  have start : s.observe r.loadHistory = ⟨.ok [], ⟨"", []⟩, s⟩ := rfl
  simp only [Repl.run, start, Repl.respondAll, observe_failed failed]
  simp [observe_failed failed]

end Session

end SmallLisp
