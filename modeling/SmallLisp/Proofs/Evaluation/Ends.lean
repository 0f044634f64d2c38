import SmallLisp.Session.Basic

/-! How stateful computations end: evaluations, and the steps of a session made of them. A
failure keeps the state in which it happened, so a rule speaks of both ends at once, and the
rules follow the way computations are put together. -/
namespace SmallLisp

variable {ε σ α β : Type} {s : σ}

/-- What holds of the result and the state after it, or of the failure and the state in it. -/
def Ends (x : EStateM ε σ α) (s : σ) (done : α → σ → Prop) (failed : ε → σ → Prop) : Prop :=
  match x s with
  | .ok a s' => done a s'
  | .error e s' => failed e s'

/-- The state at the end, whichever end it is. -/
def after (x : EStateM ε σ α) (s : σ) : σ :=
  match x s with
  | .ok _ s' => s'
  | .error _ s' => s'

theorem bind_eq {z : EStateM ε σ α} {next : α → EStateM ε σ β} {a : α} {m m₁ : σ}
    (ran : z m = .ok a m₁) : (z >>= next) m = next a m₁ := by
  change EStateM.bind z next m = _
  rw [EStateM.bind, ran]

theorem bind_eq_error {z : EStateM ε σ α} {next : α → EStateM ε σ β} {e : ε} {m m₁ : σ}
    (failed : z m = .error e m₁) : (z >>= next) m = .error e m₁ := by
  change EStateM.bind z next m = .error e m₁
  rw [EStateM.bind, failed]

variable {x : EStateM ε σ α} {done done' : α → σ → Prop} {failed failed' : ε → σ → Prop}

theorem Ends.mono (ends : Ends x s done failed) (onDone : ∀ a s', done a s' → done' a s')
    (onFailed : ∀ e s', failed e s' → failed' e s') : Ends x s done' failed' := by
  simp only [Ends] at ends ⊢
  cases h : x s with
  | ok a s' => rw [h] at ends; exact onDone a s' ends
  | error e s' => rw [h] at ends; exact onFailed e s' ends

theorem ends_iff_after {held : σ → Prop} :
    Ends x s (fun _ s' => held s') (fun _ s' => held s') ↔ held (after x s) := by
  simp only [Ends, after]
  cases x s <;> rfl

theorem Ends.bind {next : α → EStateM ε σ β} {done' : β → σ → Prop}
    (ends : Ends x s done failed)
    (rest : ∀ a s', done a s' → Ends (next a) s' done' failed) :
    Ends (x >>= next) s done' failed := by
  change Ends (EStateM.bind x next) s done' failed
  simp only [Ends, EStateM.bind]
  simp only [Ends] at ends
  cases h : x s with
  | ok a s' => rw [h] at ends; exact rest a s' ends
  | error e s' => rw [h] at ends; exact ends

theorem ends_ofExcept {r : Except ε α} (ok : ∀ a, r = .ok a → done a s)
    (error : ∀ e, r = .error e → failed e s) :
    Ends (ofExcept r : EStateM ε σ α) s done failed := by
  cases r with
  | ok a => exact ok a rfl
  | error e => exact error e rfl

/-- Keeping an event fails for want of room, or changes nothing else. -/
theorem log_eq (e : Event) (m : Machine) :
    Eval.log e m = .error .tooDeep m ∨ Eval.log e m = .ok () (m.keep e) := by
  rw [Eval.log]
  split
  · exact .inl rfl
  · exact .inr rfl

theorem ends_log {e : Event} {m : Machine} {done : Unit → Machine → Prop}
    {failed : EvalError → Machine → Prop} (kept : done () (m.keep e)) (overflows : failed .tooDeep m) :
    Ends (Eval.log e) m done failed := by
  rw [Ends]
  rcases log_eq e m with noRoom | room
  · rw [noRoom]; exact overflows
  · rw [room]; exact kept

end SmallLisp
