import SmallLisp.Session.Basic

/-! What a step of a session lets an onlooker see. -/
namespace SmallLisp

/-- The printed text and the events since the last report. -/
structure Report where
  printed : String
  events : List Event

namespace Report

/-- The messages of a level or above, with their levels. -/
def messages (r : Report) (threshold : Level) : List (Level × String) :=
  (r.events.filter (threshold ≤ ·.level)).map fun e => (e.level, e.message)

end Report

/-- How a step ended, what it let be seen, and the session after it. -/
structure Observed (α : Type) where
  result : Except SessionError α
  report : Report
  session : Session

def Observed.failure? {α : Type} (seen : Observed α) : Option SessionError :=
  match seen.result with
  | .ok _ => none
  | .error e => some e

namespace Session

/-- Takes what there is to report off the session. -/
def takeReport (s : Session) : Report × Session :=
  (⟨s.machine.printed, s.machine.events.toList⟩, { s with machine := s.machine.reported })

def observe {α : Type} (x : Working α) (s : Session) : Observed α :=
  match x s with
  | .ok a s =>
    let (report, s) := s.takeReport
    ⟨.ok a, report, s⟩
  | .error e s =>
    let (report, s) := s.takeReport
    ⟨.error e, report, s⟩

end Session

end SmallLisp
