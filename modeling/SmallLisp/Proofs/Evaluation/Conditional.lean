import SmallLisp.Proofs.Evaluation.Depth
import SmallLisp.Proofs.Evaluation.Ends

/-! A `cond` is a nest of `if`. The tests run in turn in both, and the last branch of a `cond` is
taken on `else`, which is truthy whatever the frames bind. They differ in how deep they run: each
branch of the nest is evaluated inside the one before. -/
namespace SmallLisp

namespace Form

variable {branches : List (Value × Value)} {otherwise : Value} {f : FrameId} {m m' : Machine}

/-- `(test consequent) ...` -/
def branchForms (branches : List (Value × Value)) : List Value :=
  branches.map fun b => .list [b.1, b.2]

theorem branchForms_append (branches more : List (Value × Value)) :
    branchForms (branches ++ more) = branchForms branches ++ branchForms more :=
  List.map_append

/-- `(cond (test consequent) ...)` -/
def condExpr (branches : List (Value × Value)) : Value :=
  .list (.symbol cond.name :: branchForms branches)

/-- `(else otherwise)` -/
def elseBranch (otherwise : Value) : Value × Value := (.symbol "else", otherwise)

/-- `(if test consequent (if ... otherwise))` -/
def nestedIf (otherwise : Value) : List (Value × Value) → Value
  | [] => otherwise
  | (test, consequent) :: rest =>
    .list [.symbol ifElse.name, test, consequent, nestedIf otherwise rest]

theorem step_ifExpr (ev : Evaluator) (test yes no : Value) (f : FrameId) :
    Eval.step ev (.list [.symbol ifElse.name, test, yes, no]) f = runIf ev f test yes no := by
  have found : Builtin.ofName? ifElse.name = some (.form .ifElse) := by decide +kernel
  simp only [Eval.step, Eval.call, Eval.callName, found]
  rfl

theorem step_condExpr (ev : Evaluator) (nonempty : branches ≠ []) (f : FrameId) :
    Eval.step ev (condExpr branches) f = runCond ev f (branchForms branches) := by
  have found : Builtin.ofName? cond.name = some (.form .cond) := by decide +kernel
  obtain ⟨b, rest, rfl⟩ := List.exists_cons_of_ne_nil nonempty
  simp only [Eval.step, condExpr, Eval.call, Eval.callName, found]
  rfl

/-- At least one branch is required. -/
theorem step_condExpr_nil (ev : Evaluator) (f : FrameId) :
    Eval.step ev (condExpr []) f = throw (.problem cond.name (.tooFew 1 "branch")) := by
  have found : Builtin.ofName? cond.name = some (.form .cond) := by decide +kernel
  simp only [Eval.step, condExpr, Eval.call, Eval.callName, found]
  rfl

/-- No binding in any frame is looked at. -/
theorem step_else (ev : Evaluator) (f : FrameId) :
    Eval.step ev (.symbol "else") f = pure (.bool true) := by
  have plain : quotedName? "else" = none := by decide +kernel
  have constant : constants.lookup "else" = some (.bool true) := rfl
  simp only [Eval.step, plain, Eval.resolve, constant]

section

variable (ev : Evaluator) (f : FrameId)

/-- The tests are evaluated one after another, each of them once, and none is truthy. -/
inductive AllFalsy : List Value → Machine → Machine → Prop where
  | nil {m : Machine} : AllFalsy [] m m
  | cons {test v : Value} {rest : List Value} {m m₁ m₂ : Machine} : ev test f m = .ok v m₁ →
      v.truthy = false → AllFalsy rest m₁ m₂ → AllFalsy (test :: rest) m m₂

/-- One after another, the tests come to one that is truthy or fails. -/
inductive Decided : List Value → Machine → Prop where
  | truthy {test v : Value} {rest : List Value} {m m₁ : Machine} : ev test f m = .ok v m₁ →
      v.truthy = true → Decided (test :: rest) m
  | failed {test : Value} {rest : List Value} {e : EvalError} {m m₁ : Machine} :
      ev test f m = .error e m₁ → Decided (test :: rest) m
  | later {test v : Value} {rest : List Value} {m m₁ : Machine} : ev test f m = .ok v m₁ →
      v.truthy = false → Decided rest m₁ → Decided (test :: rest) m

end

variable {ev : Evaluator}

theorem decided_or_allFalsy (ev : Evaluator) (f : FrameId) (tests : List Value) (m : Machine) :
    Decided ev f tests m ∨ ∃ m', AllFalsy ev f tests m m' := by
  induction tests generalizing m with
  | nil => exact .inr ⟨m, .nil⟩
  | cons test rest ih =>
    cases ran : ev test f m with
    | error e m₁ => exact .inl (.failed ran)
    | ok v m₁ =>
      cases truth : v.truthy with
      | true => exact .inl (.truthy ran truth)
      | false =>
        refine (ih m₁).imp (.later ran truth) ?_
        rintro ⟨m', rest⟩
        exact ⟨m', .cons ran truth rest⟩

theorem AllFalsy.not_decided {tests : List Value} (falsy : AllFalsy ev f tests m m') :
    ¬ Decided ev f tests m := by
  induction falsy with
  | nil => nofun
  | cons ran untrue _ ih =>
    rintro (⟨ran', truth⟩ | ran' | ⟨ran', _, decided⟩)
    · cases ran.symm.trans ran'
      exact Bool.false_ne_true (untrue.symm.trans truth)
    · cases ran.symm.trans ran'
    · cases ran.symm.trans ran'
      exact ih decided

/-- A branch whose test has been evaluated. -/
theorem runCond_of_test {test consequent v : Value} {rest : List Value} {m₁ : Machine}
    (ran : ev test f m = .ok v m₁) :
    runCond ev f (.list [test, consequent] :: rest) m =
      if v.truthy then ev consequent f m₁ else runCond ev f rest m₁ := by
  rw [runCond, bind_eq ran]
  split <;> rfl

theorem runCond_of_failed_test {test consequent : Value} {rest : List Value} {e : EvalError}
    {m₁ : Machine} (failed : ev test f m = .error e m₁) :
    runCond ev f (.list [test, consequent] :: rest) m = .error e m₁ :=
  bind_eq_error failed

/-- After tests of which none is truthy the other branches are due. -/
theorem runCond_of_allFalsy (falsy : AllFalsy ev f (branches.map Prod.fst) m m')
    (more : List Value) : runCond ev f (branchForms branches ++ more) m = runCond ev f more m' := by
  induction branches generalizing m with
  | nil =>
    cases falsy
    rfl
  | cons b rest ih =>
    cases falsy with
    | cons ran untrue falsy =>
      have first : runCond ev f (branchForms (b :: rest) ++ more) m = _ := runCond_of_test ran
      rw [untrue] at first
      exact first.trans (ih falsy)

/-- Where a test decides, the branches after it do not matter. -/
theorem runCond_of_decided (decided : Decided ev f (branches.map Prod.fst) m) (more : List Value) :
    runCond ev f (branchForms branches ++ more) m = runCond ev f (branchForms branches) m := by
  induction branches generalizing m with
  | nil => cases decided
  | cons b rest ih =>
    have unfolded (forms : List Value) : branchForms (b :: rest) ++ forms =
      .list [b.1, b.2] :: (branchForms rest ++ forms) := rfl
    have whole : branchForms (b :: rest) = .list [b.1, b.2] :: branchForms rest := rfl
    rw [unfolded, whole]
    cases decided with
    | truthy ran truth => rw [runCond_of_test ran, runCond_of_test ran, truth]; rfl
    | failed ran => rw [runCond_of_failed_test ran, runCond_of_failed_test ran]
    | later ran untrue decided =>
      rw [runCond_of_test ran, runCond_of_test ran, untrue]
      exact ih decided

end Form

namespace Eval

open Form

variable {branches : List (Value × Value)} {otherwise : Value} {f : FrameId}

theorem runCond_elseBranch (limit : Nat) (otherwise : Value) (f : FrameId) :
    runCond (evaluateWithin (limit + 1)) f (branchForms [elseBranch otherwise]) =
      evaluateWithin (limit + 1) otherwise f := by
  have test : evaluateWithin (limit + 1) (.symbol "else") f = pure (.bool true) := step_else _ f
  change (do if (← evaluateWithin (limit + 1) (.symbol "else") f).truthy then _ else _) = _
  rw [test]
  rfl

theorem evaluateWithin_nestedIf (limit : Nat) (b : Value × Value) :
    evaluateWithin (limit + 1) (nestedIf otherwise (b :: branches)) f =
      runIf (evaluateWithin limit) f b.1 b.2 (nestedIf otherwise branches) :=
  step_ifExpr _ _ _ _ f

/-- The nest is cut off or ends as the `cond` does with as many activations for its branches, as
its own branches run deeper. -/
theorem deepens_nestedIf {limit more : Nat} (higher : limit ≤ more) :
    Deepens (evaluateWithin limit (nestedIf otherwise branches) f)
      (runCond (evaluateWithin more) f (branchForms (branches ++ [elseBranch otherwise]))) := by
  induction branches generalizing limit with
  | nil =>
    match limit, more, higher with
    | 0, _, _ => exact fun m => .inl ⟨m, rfl⟩
    | limit + 1, more + 1, higher =>
      rw [List.nil_append, runCond_elseBranch]
      exact deepens_of_le higher otherwise f
  | cons b rest ih =>
    match limit with
    | 0 => exact fun m => .inl ⟨m, rfl⟩
    | limit + 1 =>
      have below : limit ≤ more := Nat.le_of_succ_le higher
      rw [evaluateWithin_nestedIf]
      refine (deepens_of_le below b.1 f).bind fun v => ?_
      split
      · exact deepens_of_le below b.2 f
      · exact ih below

/-- With one activation more for each branch the nest does what the `cond` does. -/
theorem deepens_runCond (limit : Nat) :
    Deepens (runCond (evaluateWithin limit) f (branchForms (branches ++ [elseBranch otherwise])))
      (evaluateWithin (limit + branches.length) (nestedIf otherwise branches) f) := by
  induction branches with
  | nil =>
    match limit with
    | 0 => exact fun m => .inl ⟨m, rfl⟩
    | limit + 1 =>
      rw [List.nil_append, runCond_elseBranch]
      exact deepens_refl _
  | cons b rest ih =>
    have higher : limit ≤ limit + rest.length := Nat.le_add_right limit _
    rw [List.length_cons, ← Nat.add_assoc, evaluateWithin_nestedIf]
    refine (deepens_of_le higher b.1 f).bind fun v => ?_
    split
    · exact deepens_of_le higher b.2 f
    · exact ih

/-- The run has been cut off by the limit on activations. -/
def CutOff (r : EStateM.Result EvalError Machine Value) : Prop := ∃ m', r = .error .tooDeep m'

theorem not_cutOff_of_ok {r : EStateM.Result EvalError Machine Value} {v : Value} {m : Machine}
    (ended : r = .ok v m) : ¬ CutOff r := by
  rintro ⟨m', deep⟩
  cases ended.symm.trans deep

/-- A run that is not cut off ends as the expression does, under every limit that does not cut that
off either. Such a limit is `limit + more`. If `limit` itself is one, then the run is not cut off. -/
structure EndsAs (r : EStateM.Result EvalError Machine Value) (limit more : Nat) (expr : Value)
    (f : FrameId) (m : Machine) : Prop where
  same : ¬ CutOff r → ∀ other, ¬ CutOff (evaluateWithin other expr f m) →
    evaluateWithin other expr f m = r
  above : ¬ CutOff r → evaluateWithin (limit + more) expr f m = r
  below : ¬ CutOff (evaluateWithin limit expr f m) → evaluateWithin limit expr f m = r

theorem evaluateWithin_of_le {limit more : Nat} (higher : limit ≤ more) {expr : Value} {m : Machine}
    (shallow : ¬ CutOff (evaluateWithin limit expr f m)) :
    evaluateWithin more expr f m = evaluateWithin limit expr f m :=
  (deepens_of_le higher expr f m).resolve_left shallow

theorem endsAs_of_deepens {x : Eval Value} {limit more : Nat} {expr : Value}
    (low : Deepens (evaluateWithin limit expr f) x)
    (high : Deepens x (evaluateWithin (limit + more) expr f)) (m : Machine) :
    EndsAs (x m) limit more expr f m where
  same shallow other shallow' := by
    have above := (high m).resolve_left shallow
    have longer := evaluateWithin_of_le (Nat.le_max_left (limit + more) other) (above ▸ shallow)
    have longer' := evaluateWithin_of_le (Nat.le_max_right (limit + more) other) shallow'
    exact longer'.symm.trans (longer.trans above)
  above shallow := (high m).resolve_left shallow
  below shallow := ((low m).resolve_left shallow).symm

theorem run_condExpr (nonempty : branches ≠ []) (limit : Nat) :
    evaluateWithin (limit + 1) (condExpr branches) f =
      runCond (evaluateWithin limit) f (branchForms branches) :=
  step_condExpr _ nonempty f

theorem run_complete (limit : Nat) :
    evaluateWithin (limit + 1) (condExpr (branches ++ [elseBranch otherwise])) f =
      runCond (evaluateWithin limit) f (branchForms (branches ++ [elseBranch otherwise])) :=
  run_condExpr (by simp) limit

/-- Where some test decides, the `else` branch is not missed. -/
theorem run_bare_of_decided {m : Machine} {limit : Nat}
    (decided : Decided (evaluateWithin limit) f (branches.map Prod.fst) m) (otherwise : Value) :
    evaluateWithin (limit + 1) (condExpr branches) f m =
      evaluateWithin (limit + 1) (condExpr (branches ++ [elseBranch otherwise])) f m := by
  have nonempty : branches ≠ [] := by
    rintro rfl
    cases decided
  rw [run_condExpr nonempty, run_complete, branchForms_append]
  exact (runCond_of_decided decided _).symm

theorem run_bare_of_allFalsy {m m' : Machine} {limit : Nat}
    (falsy : AllFalsy (evaluateWithin limit) f (branches.map Prod.fst) m m') :
    evaluateWithin (limit + 1) (condExpr branches) f m = .error (.problem cond.name
      (if branches.isEmpty then .tooFew 1 "branch" else .noBranch)) m' := by
  cases branches with
  | nil =>
    cases falsy
    change step _ (condExpr []) f m = _
    rw [step_condExpr_nil]
    rfl
  | cons b rest =>
    have ended := runCond_of_allFalsy falsy []
    rw [List.append_nil] at ended
    rw [run_condExpr (List.cons_ne_nil b rest), ended]
    rfl

/-- With an `else` branch a `cond` ends as the nest of `if`s that has the same branches, whatever
the frames bind. Without one it ends so if some test is truthy or fails. If there is no such test,
then all tests are evaluated and the `cond` fails. -/
theorem cond_ends_as_nested_if (branches : List (Value × Value)) (otherwise : Value) (f : FrameId)
    (m : Machine) (limit : Nat) :
    let run := fun expr => evaluateWithin (limit + 1) expr f m
    let tests := branches.map Prod.fst
    let complete := condExpr (branches ++ [elseBranch otherwise])
    let bare := condExpr branches
    let nested := nestedIf otherwise branches
    EndsAs (run complete) limit branches.length nested f m ∧
    (Decided (evaluateWithin limit) f tests m →
      EndsAs (run bare) limit branches.length nested f m) ∧
    (¬ Decided (evaluateWithin limit) f tests m →
      ∃ m', AllFalsy (evaluateWithin limit) f tests m m' ∧ run bare = .error (.problem cond.name
        (if branches.isEmpty then .tooFew 1 "branch" else .noBranch)) m') := by
  intro run tests complete bare nested
  have whole : EndsAs (run complete) limit branches.length nested f m := by
    have low : Deepens (evaluateWithin limit nested f) _ := deepens_nestedIf (Nat.le_refl limit)
    have ends := endsAs_of_deepens low (deepens_runCond limit) m
    rwa [← run_complete] at ends
  refine ⟨whole, fun decided => ?_, fun undecided => ?_⟩
  · have same : run bare = run complete := run_bare_of_decided decided otherwise
    rwa [same]
  · obtain ⟨m', falsy⟩ := (decided_or_allFalsy _ f tests m).resolve_left undecided
    exact ⟨m', falsy, run_bare_of_allFalsy falsy⟩

/-- `(begin (print 1) nil)` and `(= else 2)` are falsy, also where the frame binds `else` to nil. So
with `(list else if)` for all other cases that is evaluated, and without them the `cond` fails; a
third test, `(define if 5)`, decides. -/
theorem cond_ends_as_nested_if_bound :
    let frame : Frame := ⟨[("else", .nil), ("if", .int 7), ("cond", .bool false)], none⟩
    let m : Machine := { Machine.initial with heap := ⟨#[frame]⟩ }
    let branches : List (Value × Value) :=
      [(.list [.symbol "begin", .list [.symbol "print", .int 1], .nil], .int 3),
        (.list [.symbol "=", .symbol "else", .int 2], .int 4)]
    let more := branches ++ [(.list [.symbol "define", .symbol "if", .int 5], .symbol "if")]
    let otherwise : Value := .list [.symbol "list", .symbol "else", .symbol "if"]
    let run := fun expr => evaluateWithin 4 expr 0 m
    (∃ m', run (condExpr (branches ++ [elseBranch otherwise])) = .ok (.list [.bool true, .int 7]) m' ∧
      evaluateWithin 5 (nestedIf otherwise branches) 0 m = .ok (.list [.bool true, .int 7]) m') ∧
    (∃ m', AllFalsy (evaluateWithin 3) 0 (branches.map Prod.fst) m m' ∧ m'.printed = "1\n" ∧
      run (condExpr branches) = .error (.problem "cond" .noBranch) m') ∧
    Decided (evaluateWithin 3) 0 (more.map Prod.fst) m ∧
    ∃ m', run (condExpr more) = .ok (.int 5) m' ∧
      evaluateWithin 6 (nestedIf otherwise more) 0 m = .ok (.int 5) m' := by
  intro frame m branches more otherwise run
  have tested : ∃ m', AllFalsy (evaluateWithin 3) 0 (branches.map Prod.fst) m m' :=
    ⟨_, .cons rfl rfl (.cons rfl rfl .nil)⟩
  have decided : Decided (evaluateWithin 3) 0 (more.map Prod.fst) m :=
    .later rfl rfl (.later rfl rfl (.truthy rfl rfl))
  obtain ⟨m₁, ran⟩ : ∃ m', run (condExpr (branches ++ [elseBranch otherwise])) =
      .ok (.list [.bool true, .int 7]) m' := ⟨_, rfl⟩
  obtain ⟨m₂, failed, printed⟩ : ∃ m', run (condExpr branches) =
      .error (.problem "cond" .noBranch) m' ∧ m'.printed = "1\n" := ⟨_, rfl, by decide +kernel⟩
  obtain ⟨m₃, ran'⟩ : ∃ m', run (condExpr more) = .ok (.int 5) m' := ⟨_, rfl⟩
  obtain ⟨whole, -, fails⟩ := cond_ends_as_nested_if branches otherwise 0 m 3
  obtain ⟨-, bare, -⟩ := cond_ends_as_nested_if more otherwise 0 m 3
  obtain ⟨_, falsy⟩ := tested
  obtain ⟨m', allFalsy, same⟩ := fails falsy.not_decided
  obtain rfl : m₂ = m' := by
    cases failed.symm.trans same
    rfl
  refine ⟨⟨m₁, ran, ?_⟩, ⟨m₂, allFalsy, printed, failed⟩, decided, m₃, ran', ?_⟩
  · exact (whole.above (not_cutOff_of_ok ran)).trans ran
  · exact ((bare decided).above (not_cutOff_of_ok ran')).trans ran'

end Eval

end SmallLisp
