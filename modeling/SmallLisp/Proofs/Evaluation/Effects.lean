import SmallLisp.Proofs.Evaluation.Congruence
import SmallLisp.Proofs.Evaluation.Ends

/-! What evaluations are made of. Each is put together from a few steps of the machine that
follow one another, so a property that these steps have, and that computations in turn have if
each of them does, is one of every evaluation. -/
namespace SmallLisp.Eval

/-- The steps of the machine have the property, and so have computations in turn. -/
structure Stepwise (P : {α : Type} → Eval α → Prop) : Prop where
  pure : ∀ {α : Type} (a : α), P (pure a : Eval α)
  throw : ∀ {α : Type} (e : EvalError), P (throw e : Eval α)
  bind : ∀ {α β : Type} {x : Eval α} {next : α → Eval β}, P x → (∀ a, P (next a)) → P (x >>= next)
  define : ∀ f name v, P (define f name v)
  undefine : ∀ f name, P (undefine f name)
  newFrame : ∀ bindings outer, P (newFrame bindings outer)
  newProcedure : ∀ params body f, P (newProcedure params body f)
  lookup : ∀ f name, P (lookup f name)
  names : ∀ f, P (names f)
  print : ∀ text, P (print text)
  calling : ∀ name args, P (log (.calling name args))
  operatorEvaluated : ∀ form operator, P (log (.operatorEvaluated form operator))
  choose : ∀ n, P (choose n)

/-- The evaluations of all expressions have it. -/
def Always (P : {α : Type} → Eval α → Prop) (ev : Evaluator) : Prop :=
  ∀ expr f, P (ev expr f)

section

variable {P : {α : Type} → Eval α → Prop} (stepwise : Stepwise P)

include stepwise

theorem Stepwise.resolve (name : String) (f : FrameId) : P (resolve name f) := by
  simp only [Eval.resolve]
  split
  · exact stepwise.pure _
  · exact stepwise.lookup f name

/-- A property is a relation that looks at one side only. -/
theorem Stepwise.congruence : Congruence fun x _ => P x where
  pure := stepwise.pure
  throw := stepwise.throw
  bind := stepwise.bind
  define := stepwise.define
  undefine := stepwise.undefine
  newFrame := stepwise.newFrame
  newProcedure := stepwise.newProcedure
  resolve := stepwise.resolve
  print := stepwise.print
  calling := stepwise.calling
  operatorEvaluated := stepwise.operatorEvaluated
  choose := stepwise.choose

theorem Stepwise.evaluateWithin (limit : Nat) : Always P (evaluateWithin limit) := by
  induction limit with
  | zero => exact fun _ _ => stepwise.throw _
  | succ limit ih =>
    have abreast : Abreast (fun x _ => P x) (Eval.evaluateWithin limit) (Eval.evaluateWithin limit) :=
      ih
    exact fun expr f => stepwise.congruence.step abreast f expr fun _ => stepwise.names f

end

theorem log_keeps_level (e : Event) (m : Machine) : (after (log e) m).level = m.level := by
  rw [after]
  rcases log_eq e m with noRoom | room
  · rw [noRoom]
  · rw [room]
    rfl

/-- Nothing gives the logger another level. -/
theorem keepsLevel_stepwise : Stepwise fun x => ∀ m, (after x m).level = m.level where
  pure _ := fun _ => rfl
  throw _ := fun _ => rfl
  bind := by
    intro α β x next first rest m
    have kept := first m
    change (after (EStateM.bind x next) m).level = m.level
    rw [after] at kept ⊢
    rw [EStateM.bind]
    cases ended : x m with
    | ok a m' => rw [ended] at kept; exact (rest a m').trans kept
    | error e m' => rw [ended] at kept; exact kept
  define _ _ _ := fun _ => rfl
  undefine _ _ := fun _ => rfl
  newFrame _ _ := fun _ => rfl
  newProcedure _ _ _ := fun _ => rfl
  lookup _ _ := fun _ => rfl
  names _ := fun _ => rfl
  print _ := fun _ => rfl
  calling _ _ := log_keeps_level _
  operatorEvaluated _ _ := log_keeps_level _
  choose _ := fun m => by
    change ({ m with seed := _ } : Machine).level = m.level
    rfl

end SmallLisp.Eval
