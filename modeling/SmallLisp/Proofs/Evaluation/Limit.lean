import SmallLisp.Proofs.Evaluation.Reporting

/-! The limit on activations cuts a run off and does nothing else. Under a higher limit the run
ends as it did, or goes on from where it was cut off, and has then reported all that it had. -/
namespace SmallLisp

/-- What the second has reported begins with what the first has. -/
def Machine.Begins (m m' : Machine) : Prop :=
  ∃ printed events, m'.printed = m.printed ++ printed ∧ m'.events = m.events ++ events

section

variable {m m' m'' : Machine}

theorem Machine.begins_refl (m : Machine) : m.Begins m := ⟨"", #[], by simp, by simp⟩

theorem Machine.Begins.trans (first : m.Begins m') (second : m'.Begins m'') : m.Begins m'' := by
  obtain ⟨printed, events, onPaper, inLog⟩ := first
  obtain ⟨printed', events', onPaper', inLog'⟩ := second
  refine ⟨printed ++ printed', events ++ events', ?_, ?_⟩
  · rw [onPaper', onPaper, String.append_assoc]
  · rw [inLog', inLog, Array.append_assoc]

variable {ε α β : Type} {x : EStateM ε Machine α} {next : α → EStateM ε Machine β}

/-- Nothing that has been reported is taken back. -/
theorem Reports.begins (reports : Reports x) (m : Machine) : m.Begins (after x m) := by
  have same := reports m.reported m.printed m.events
  rw [Machine.reporting_reported] at same
  rw [after, same]
  cases x m.reported with
  | ok a m' => exact ⟨m'.printed, m'.events, rfl, rfl⟩
  | error e m' => exact ⟨m'.printed, m'.events, rfl, rfl⟩

theorem begins_bind (reports : ∀ a, Reports (next a)) (m : Machine) :
    (after x m).Begins (after (x >>= next) m) := by
  change (after x m).Begins (after (EStateM.bind x next) m)
  rw [after, after, EStateM.bind]
  cases x m with
  | ok a m' => exact (reports a).begins m'
  | error e m' => exact m'.begins_refl

end

namespace Eval

variable {α β : Type} {x y : Eval α}

/-- The second computation does what the first does, unless that runs too deep, and then it reports
what the first has reported before anything else. -/
def Outlasts (x y : Eval α) : Prop :=
  Reports y ∧ ∀ m, (∃ m', x m = .error .tooDeep m' ∧ m'.Begins (after y m)) ∨ y m = x m

theorem outlasts_self (reports : Reports x) : Outlasts x x := ⟨reports, fun _ => .inr rfl⟩

theorem Outlasts.bind {next next' : α → Eval β} (first : Outlasts x y)
    (rest : ∀ a, Outlasts (next a) (next' a)) : Outlasts (x >>= next) (y >>= next') := by
  have reports (a : α) : Reports (next' a) := (rest a).1
  refine ⟨first.1.bind reports, fun m => ?_⟩
  have later : (after y m).Begins (after (y >>= next') m) := begins_bind reports m
  change (∃ m', EStateM.bind x next m = .error .tooDeep m' ∧ m'.Begins (after (y >>= next') m)) ∨
    EStateM.bind y next' m = EStateM.bind x next m
  rcases first.2 m with ⟨m', deep, begins⟩ | same
  · exact .inl ⟨m', by rw [EStateM.bind, deep], begins.trans later⟩
  · have unfolded : after (y >>= next') m = after (EStateM.bind y next') m := rfl
    rw [unfolded, after, EStateM.bind, EStateM.bind, same]
    cases x m with
    | ok a m' => exact (rest a).2 m'
    | error e m' => exact .inr rfl

theorem congruence_outlasts : Congruence Outlasts where
  pure _ := outlasts_self (reports_stepwise.pure _)
  throw _ := outlasts_self (reports_stepwise.throw _)
  bind := .bind
  define _ _ _ := outlasts_self (reports_stepwise.define _ _ _)
  undefine _ _ := outlasts_self (reports_stepwise.undefine _ _)
  newFrame _ _ := outlasts_self (reports_stepwise.newFrame _ _)
  newProcedure _ _ _ := outlasts_self (reports_stepwise.newProcedure _ _ _)
  resolve _ _ := outlasts_self (reports_stepwise.resolve _ _)
  print _ := outlasts_self (reports_stepwise.print _)
  calling _ _ := outlasts_self (reports_stepwise.calling _ _)
  operatorEvaluated _ _ := outlasts_self (reports_stepwise.operatorEvaluated _ _)
  choose _ := outlasts_self (reports_stepwise.choose _)

theorem outlasts_evaluateWithin {limit more : Nat} (higher : limit ≤ more) :
    Abreast Outlasts (evaluateWithin limit) (evaluateWithin more) := by
  induction limit generalizing more with
  | zero =>
    intro expr f
    have reports := reports_stepwise.evaluateWithin more expr f
    exact ⟨reports, fun m => .inl ⟨m, rfl, reports.begins m⟩⟩
  | succ limit ih =>
    cases more with
    | zero => exact absurd higher (Nat.not_succ_le_zero limit)
    | succ more =>
      have below := ih (Nat.le_of_succ_le_succ higher)
      exact fun expr f => congruence_outlasts.step below f expr
        fun _ => outlasts_self (reports_stepwise.names f)

/-- A run that a limit does not cut off is the same run under every higher limit: it has the same
value or fails in the same way, and leaves the same machine. What a run that is cut off has printed
and logged by then is the beginning of what the run under a higher limit prints and logs. -/
theorem evaluateWithin_of_higher_limit {limit more : Nat} (higher : limit ≤ more) (expr : Value)
    (f : FrameId) (m : Machine) :
    let run := evaluateWithin limit expr f
    let longer := evaluateWithin more expr f
    (∀ v m', run m = .ok v m' → longer m = .ok v m') ∧
    (∀ e m', e ≠ .tooDeep → run m = .error e m' → longer m = .error e m') ∧
    ∀ m', run m = .error .tooDeep m' → m'.Begins (after longer m) := by
  intro run longer
  obtain ⟨-, outlasts⟩ := outlasts_evaluateWithin higher expr f
  have outcome := outlasts m
  refine ⟨fun v m' ended => ?_, fun e m' other ended => ?_, fun m' deep => ?_⟩
  · rcases outcome with ⟨m₁, deep, -⟩ | same
    · cases ended.symm.trans deep
    · exact same.trans ended
  · rcases outcome with ⟨m₁, deep, -⟩ | same
    · cases ended.symm.trans deep
      exact absurd rfl other
    · exact same.trans ended
  · rcases outcome with ⟨m₁, deep', begins⟩ | same
    · cases deep.symm.trans deep'
      exact begins
    · have cut : longer m = .error .tooDeep m' := same.trans deep
      rw [after, cut]
      exact m'.begins_refl

/-- A procedure `f` prints as it counts down, and is called with 1. Five activations at once let it
print one line, and with eight it ends as it does with twenty. -/
theorem evaluateWithin_of_higher_limit_counting :
    let again : Value := .list [.symbol "f", .list [.symbol "-", .symbol "n", .int 1]]
    let isZero : Value := .list [.symbol "=", .symbol "n", .int 0]
    let body : Value := .list [.symbol "begin", .list [.symbol "print", .symbol "n"],
      .list [.symbol "if", isZero, .str "done", again]]
    let definition : Value := .list [.symbol "define", .list [.symbol "f", .symbol "n"], body]
    let m := after (evaluateWithin 1 definition 0) Machine.initial
    let expr : Value := .list [.symbol "f", .int 1]
    5 ≤ 20 ∧ 8 ≤ 20 ∧
    (∃ m', evaluateWithin 5 expr 0 m = .error .tooDeep m' ∧ m'.printed = "1\n" ∧
      m'.Begins (after (evaluateWithin 20 expr 0) m)) ∧
    ∃ m', evaluateWithin 8 expr 0 m = .ok (.str "done") m' ∧ m'.printed = "1\n0\n" ∧
      evaluateWithin 20 expr 0 m = .ok (.str "done") m' := by
  intro again isZero body definition m expr
  have five : 5 ≤ 20 := by decide
  have eight : 8 ≤ 20 := by decide
  refine ⟨five, eight, ⟨_, rfl, by decide +kernel, ?_⟩, ⟨_, rfl, by decide +kernel, ?_⟩⟩
  · exact (evaluateWithin_of_higher_limit five expr 0 m).2.2 _ rfl
  · exact (evaluateWithin_of_higher_limit eight expr 0 m).1 _ _ rfl

end Eval

end SmallLisp
