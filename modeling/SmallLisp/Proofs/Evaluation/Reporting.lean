import SmallLisp.Proofs.Evaluation.Call
import SmallLisp.Proofs.Evaluation.Effects

/-! What has been reported, in print or to the log, is never looked at again: a computation goes
on as it would have done without, and what it reports itself comes after that. -/
namespace SmallLisp

variable {ε σ α β : Type}

/-- The machine, where this has been reported before all that it has reported. -/
def Machine.reporting (m : Machine) (printed : String) (events : Array Event) : Machine :=
  { m with printed := printed ++ m.printed, events := events ++ m.events }

/-- The same end with another state. -/
def changed (change : σ → σ) : EStateM.Result ε σ α → EStateM.Result ε σ α
  | .ok a s => .ok a (change s)
  | .error e s => .error e (change s)

section

variable {m : Machine}

theorem Machine.reporting_reported (m : Machine) :
    m.reported.reporting m.printed m.events = m := by
  simp [reporting, reported]

theorem Machine.reporting_eq (quiet : m.reported = m) (printed : String) (events : Array Event) :
    m.reporting printed events = { m with printed, events } := by
  rw [← quiet]
  simp [reporting, reported]

theorem Machine.reporting_keep (printed : String) (events : Array Event) (e : Event) :
    (m.reporting printed events).keep e = (m.keep e).reporting printed events := by
  simp [reporting, keep]

theorem Machine.Ready.reported (ready : m.Ready) : m.reported.Ready := ⟨ready.sound, ready.root⟩

end

/-- What is reported comes after what has been, which makes no difference otherwise. -/
def Reports (x : EStateM ε Machine α) : Prop :=
  ∀ m printed events, x (m.reporting printed events) = changed (·.reporting printed events) (x m)

/-- What is logged is for debugging only. -/
def Debugs (x : EStateM ε Machine α) : Prop :=
  ∀ m, ∀ e ∈ (after x m).events, e ∈ m.events ∨ e.level = .debug

section

variable {x : EStateM ε Machine α} {next : α → EStateM ε Machine β}

theorem Reports.bind (first : Reports x) (rest : ∀ a, Reports (next a)) : Reports (x >>= next) := by
  intro m printed events
  change EStateM.bind x next (m.reporting printed events) = changed _ (EStateM.bind x next m)
  rw [EStateM.bind, EStateM.bind, first]
  cases x m with
  | ok a m' => exact rest a m' printed events
  | error e m' => rfl

theorem debugs_of_events_eq (same : ∀ m, (after x m).events = m.events) : Debugs x := by
  intro m e member
  rw [same m] at member
  exact .inl member

theorem Debugs.bind (first : Debugs x) (rest : ∀ a, Debugs (next a)) : Debugs (x >>= next) := by
  intro m
  have before := first m
  change ∀ e ∈ (after (EStateM.bind x next) m).events, _
  rw [after] at before ⊢
  rw [EStateM.bind]
  cases ended : x m with
  | ok a m' =>
    rw [ended] at before
    exact fun e member => (rest a m' e member).elim (before e) .inr
  | error e m' =>
    rw [ended] at before
    exact before

end

namespace Eval

theorem reports_log (e : Event) : Reports (log e) := by
  intro m printed events
  have level : (m.reporting printed events).level = m.level := rfl
  rw [log, log, level, Machine.reporting_keep]
  split <;> rfl

theorem reports_stepwise : Stepwise Reports where
  pure _ := fun _ _ _ => rfl
  throw _ := fun _ _ _ => rfl
  bind := .bind
  define _ _ _ := fun _ _ _ => rfl
  undefine _ _ := fun _ _ _ => rfl
  newFrame _ _ := fun _ _ _ => rfl
  newProcedure _ _ _ := fun _ _ _ => rfl
  lookup _ _ := fun _ _ _ => rfl
  names _ := fun _ _ _ => rfl
  choose _ := fun _ _ _ => rfl
  print text := by
    intro m printed events
    change EStateM.Result.ok () _ = EStateM.Result.ok () _
    simp [Machine.reporting, String.append_assoc]
  calling name args := reports_log _
  operatorEvaluated form operator := reports_log _

theorem debugs_log {event : Event} (debug : event.level = .debug) : Debugs (log event) := by
  intro m e member
  rw [after] at member
  rcases log_eq event m with noRoom | room
  · rw [noRoom] at member
    exact .inl member
  · rw [room] at member
    rcases Array.mem_push.mp member with before | rfl
    · exact .inl before
    · exact .inr debug

theorem debugs_stepwise : Stepwise Debugs where
  pure _ := debugs_of_events_eq fun _ => rfl
  throw _ := debugs_of_events_eq fun _ => rfl
  bind := .bind
  define _ _ _ := debugs_of_events_eq fun _ => rfl
  undefine _ _ := debugs_of_events_eq fun _ => rfl
  newFrame _ _ := debugs_of_events_eq fun _ => rfl
  newProcedure _ _ _ := debugs_of_events_eq fun _ => rfl
  lookup _ _ := debugs_of_events_eq fun _ => rfl
  names _ := debugs_of_events_eq fun _ => rfl
  choose _ := debugs_of_events_eq fun m => by
    change ({ m with seed := _ } : Machine).events = m.events
    rfl
  print _ := debugs_of_events_eq fun _ => rfl
  calling _ _ := debugs_log rfl
  operatorEvaluated _ _ := debugs_log rfl

end Eval

namespace Session

variable {m : Machine}

theorem reports_evaluateSource (source : String) (f : FrameId) :
    Reports (evaluateSource source f) := by
  intro m printed events
  simp only [evaluateSource]
  cases read source with
  | error e => rfl
  | ok expr =>
    have same := Eval.reports_stepwise.evaluateWithin Eval.activationLimit expr f m printed events
    simp only [EStateM.adaptExcept, Eval.evaluate, same]
    cases Eval.evaluateWithin Eval.activationLimit expr f m <;> rfl

theorem debugs_evaluateSource (source : String) (f : FrameId) :
    Debugs (evaluateSource source f) := by
  simp only [evaluateSource]
  cases read source with
  | error e => exact debugs_of_events_eq fun _ => rfl
  | ok expr =>
    intro m
    rw [after_adaptExcept]
    exact Eval.debugs_stepwise.evaluateWithin Eval.activationLimit expr f m

theorem reports_runLine (file : String) (number : Nat) (line : String) :
    Reports (runLine file number line) := by
  intro m printed events
  simp only [runLine, reports_evaluateSource line Heap.root m printed events]
  cases evaluateSource line Heap.root m with
  | ok v m' => rfl
  | error e m' =>
    simp only [changed, Machine.reporting_keep]
    cases e.gravity <;> rfl

theorem reports_runLines (file : String) (number : Nat) (lines : List Bytes) :
    Reports (runLines file number lines) := by
  induction lines generalizing number with
  | nil => exact fun _ _ _ => rfl
  | cons raw rest ih =>
    simp only [runLines]
    split
    · exact (reports_runLine file number _).bind fun _ => ih (number + 1)
    · intro m printed events
      exact congrArg (EStateM.Result.ok ()) (Machine.reporting_keep printed events _)

end Session

end SmallLisp
