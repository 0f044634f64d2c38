import SmallLisp.Proofs.Evaluation.Congruence

/-! The limit on activations. A run that does not end too deep under one limit is the same run
under every higher one. -/
namespace SmallLisp.Eval

variable {α β : Type} {x y : Eval α}

/-- The second computation does what the first does, unless that runs too deep. -/
def Deepens (x y : Eval α) : Prop := ∀ m, (∃ m', x m = .error .tooDeep m') ∨ y m = x m

theorem deepens_refl (x : Eval α) : Deepens x x := fun _ => .inr rfl

theorem Deepens.bind {next next' : α → Eval β} (first : Deepens x y)
    (rest : ∀ a, Deepens (next a) (next' a)) : Deepens (x >>= next) (y >>= next') := by
  intro m
  change (∃ m', EStateM.bind x next m = .error .tooDeep m') ∨
    EStateM.bind y next' m = EStateM.bind x next m
  simp only [EStateM.bind]
  rcases first m with ⟨m', deep⟩ | same
  · exact .inl ⟨m', by rw [deep]⟩
  · rw [same]
    cases x m with
    | ok a m' => exact rest a m'
    | error e m' => exact .inr rfl

theorem congruence_deepens : Congruence Deepens where
  pure _ := deepens_refl _
  throw _ := deepens_refl _
  bind := .bind
  define _ _ _ := deepens_refl _
  undefine _ _ := deepens_refl _
  newFrame _ _ := deepens_refl _
  newProcedure _ _ _ := deepens_refl _
  resolve _ _ := deepens_refl _
  print _ := deepens_refl _
  calling _ _ := deepens_refl _
  operatorEvaluated _ _ := deepens_refl _
  choose _ := deepens_refl _

/-- So on every expression, in every frame. -/
def DeepensEvaluator (ev ev' : Evaluator) : Prop := ∀ expr f, Deepens (ev expr f) (ev' expr f)

theorem deepens_succ (limit : Nat) :
    DeepensEvaluator (evaluateWithin limit) (evaluateWithin (limit + 1)) := by
  induction limit with
  | zero => exact fun _ _ m => .inl ⟨m, rfl⟩
  | succ limit ih => exact fun expr f => congruence_deepens.step ih f expr fun _ => deepens_refl _

theorem Deepens.trans {z : Eval α} (first : Deepens x y) (second : Deepens y z) : Deepens x z := by
  intro m
  rcases first m with deep | same
  · exact .inl deep
  · rw [← same]
    exact second m

theorem deepens_of_le {limit more : Nat} (higher : limit ≤ more) :
    DeepensEvaluator (evaluateWithin limit) (evaluateWithin more) := by
  induction higher with
  | refl => exact fun expr f => deepens_refl _
  | step _ ih => exact fun expr f => (ih expr f).trans (deepens_succ _ expr f)

end SmallLisp.Eval
