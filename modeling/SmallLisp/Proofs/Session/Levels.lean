import SmallLisp.Proofs.Evaluation.Limit
import SmallLisp.Proofs.Session.Reachable

/-! Sessions under loggers of two levels. What a logger writes is never looked at, so all that it
can do to a run is to cut it off, where it lets an event through that there is no room to write.
Unless that happens, a level makes no difference but to the log. -/
namespace SmallLisp

variable {ε σ α β : Type} {l l' : Level}

/-- The run from the machine is cut off under a logger of the level `l`, by an event that there is no
room to write. It has reported then what it reports before that event under its own logger. -/
def CutShort (l : Level) (deep : ε) (x : EStateM ε Machine α) (m : Machine) : Prop :=
  ∃ (m' : Machine) (e : Event), e.Overflows l ∧ x (m.atLevel l) = .error deep (m'.atLevel l) ∧
    (m'.keep e).Begins (after x m)

/-- Under a logger of the level `l`, the run ends as under its own, and has room for all its
events. -/
def Unheard (l : Level) (x : EStateM ε Machine α) (m : Machine) : Prop :=
  x (m.atLevel l) = changed (·.atLevel l) (x m) ∧
    ∀ e ∈ (after x m).events, e ∈ m.events ∨ ¬ e.Overflows l

/-- All that a lower logger can do to the computation is to cut it off. -/
structure Listens (l : Level) (deep : ε) (x : EStateM ε Machine α) : Prop where
  reports : Reports x
  level : ∀ m, (after x m).level = m.level
  ends : ∀ m, Log.threshold l ≤ Log.threshold m.level → CutShort l deep x m ∨ Unheard l x m

theorem after_bind (x : EStateM ε σ α) (next : α → EStateM ε σ β) (s : σ) :
    after (x >>= next) s = match x s with
      | .ok a s' => after (next a) s'
      | .error _ s' => s' := by
  change after (EStateM.bind x next) s = _
  rw [after, EStateM.bind]
  cases x s <;> rfl

namespace Listens

variable {deep : ε} {x : EStateM ε Machine α} {next : α → EStateM ε Machine β}

theorem bind (first : Listens l deep x) (rest : ∀ a, Listens l deep (next a)) :
    Listens l deep (x >>= next) where
  reports := first.reports.bind fun a => (rest a).reports
  level m := by
    have kept := first.level m
    rw [after] at kept
    rw [after_bind]
    cases ended : x m with
    | ok a m' => rw [ended] at kept; exact ((rest a).level m').trans kept
    | error e m' => rw [ended] at kept; exact kept
  ends m lower := by
    have later : (after x m).Begins (after (x >>= next) m) :=
      begins_bind (fun a => (rest a).reports) m
    rcases first.ends m lower with ⟨m', e, overflows, cut, begins⟩ | ⟨same, quiet⟩
    · exact .inl ⟨m', e, overflows, bind_eq_error cut, begins.trans later⟩
    · have level := first.level m
      rw [after] at quiet level
      cases ended : x m with
      | error e m' =>
        rw [ended] at same quiet
        refine .inr ⟨?_, ?_⟩
        · rw [bind_eq_error ended]
          exact bind_eq_error same
        · rw [after_bind, ended]
          exact quiet
      | ok a m' =>
        rw [ended] at same quiet level
        rcases (rest a).ends m' (level ▸ lower) with ⟨m₁, e, overflows, cut, begins⟩ | ⟨same', quiet'⟩
        · refine .inl ⟨m₁, e, overflows, (bind_eq same).trans cut, ?_⟩
          rw [after_bind, ended]
          exact begins
        · refine .inr ⟨?_, ?_⟩
          · rw [bind_eq ended]
            exact (bind_eq same).trans same'
          · rw [after_bind, ended]
            exact fun e member => (quiet' e member).elim (quiet e) .inr

end Listens

namespace Eval

end Eval

/-- Goes on in one of two ways, as the first computation ends. -/
def resume {ε' : Type} (x : EStateM ε σ α) (done : α → EStateM ε' σ β)
    (failed : ε → EStateM ε' σ β) : EStateM ε' σ β := fun s =>
  match x s with
  | .ok a s' => done a s'
  | .error e s' => failed e s'

/-- The computation does the same in the view of the state in which a lower logger is at work, if
there is room for all the events that the machine in the state has kept in the end. -/
structure Unaffected (l : Level) (machine : σ → Machine) (view : σ → σ) (x : EStateM ε σ α) :
    Prop where
  level : ∀ s, (machine (after x s)).level = (machine s).level
  keeps : ∀ s, ∀ e ∈ (machine s).events, e ∈ (machine (after x s)).events
  same : ∀ s, Log.threshold l ≤ Log.threshold (machine s).level →
    (∀ e ∈ (machine (after x s)).events, ¬ e.Overflows l) → x (view s) = changed view (x s)

namespace Unaffected

variable {machine : σ → Machine} {view : σ → σ} {x : EStateM ε σ α} {next : α → EStateM ε σ β}

theorem of_machine_eq (kept : ∀ s, machine (after x s) = machine s)
    (same : ∀ s, x (view s) = changed view (x s)) : Unaffected l machine view x where
  level s := by rw [kept]
  keeps s e member := by rwa [kept]
  same s _ _ := same s

theorem resume {ε' : Type} {done : α → EStateM ε' σ β} {failed : ε → EStateM ε' σ β}
    (first : Unaffected l machine view x) (onDone : ∀ a, Unaffected l machine view (done a))
    (onFailed : ∀ e, Unaffected l machine view (failed e)) :
    Unaffected l machine view (resume x done failed) where
  level s := by
    have level := first.level s
    simp only [after, SmallLisp.resume] at level ⊢
    cases ended : x s with
    | ok a s' => rw [ended] at level; exact ((onDone a).level s').trans level
    | error e s' => rw [ended] at level; exact ((onFailed e).level s').trans level
  keeps s e member := by
    have kept := first.keeps s e member
    simp only [after, SmallLisp.resume] at kept ⊢
    cases ended : x s with
    | ok a s' => rw [ended] at kept; exact (onDone a).keeps s' e kept
    | error e' s' => rw [ended] at kept; exact (onFailed e').keeps s' e kept
  same s lower room := by
    have level := first.level s
    have same := first.same s lower
    simp only [after, SmallLisp.resume] at level same room
    rw [SmallLisp.resume, SmallLisp.resume]
    cases ended : x s with
    | ok a s' =>
      rw [ended] at level same room
      have ran := same fun e member => room e ((onDone a).keeps s' e member)
      simp only [ran, changed]
      exact (onDone a).same s' (level ▸ lower) room
    | error e s' =>
      rw [ended] at level same room
      have ran := same fun e' member => room e' ((onFailed e).keeps s' e' member)
      simp only [ran, changed]
      exact (onFailed e).same s' (level ▸ lower) room

theorem pure (a : α) : Unaffected l machine view (pure a : EStateM ε σ α) :=
  of_machine_eq (fun _ => rfl) fun _ => rfl

theorem throw (e : ε) : Unaffected l machine view (throw e : EStateM ε σ α) :=
  of_machine_eq (fun _ => rfl) fun _ => rfl

theorem bind (first : Unaffected l machine view x) (rest : ∀ a, Unaffected l machine view (next a)) :
    Unaffected l machine view (x >>= next) := by
  have resumed : x >>= next = SmallLisp.resume x next MonadExcept.throw := by
    funext s
    change EStateM.bind x next s = _
    rw [EStateM.bind, SmallLisp.resume]
    cases x s <;> rfl
  rw [resumed]
  exact first.resume rest throw

theorem get_bind {next : σ → EStateM ε σ β} (each : ∀ s, Unaffected l machine view (next s))
    (view_eq : ∀ s, next (view s) = next s) : Unaffected l machine view (get >>= next) where
  level s := (each s).level s
  keeps s := (each s).keeps s
  same s lower room := by
    have same := (each s).same s lower room
    rw [← view_eq s] at same
    exact same.trans (by rw [view_eq s]; rfl)

end Unaffected

namespace Session

variable {deep : SourceError}

variable {l₁ l₂ : Level}

end Session

end SmallLisp
