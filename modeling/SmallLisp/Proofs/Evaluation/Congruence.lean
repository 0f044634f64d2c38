import SmallLisp.Evaluation.Evaluate

/-! Evaluations side by side. A relation that the steps of the machine have to themselves, and that
computations in turn have if each of them does, holds between the evaluations of an expression by
two evaluators if it holds between the evaluations of whatever is in it. Only a call of one form
lists the names of a frame, so elsewhere that step need not have the relation. -/
namespace SmallLisp

/-- A call of the form that lists the names of a frame. -/
def Value.listsNames : Value → Bool
  | .list [.symbol name] | .foreign _ [.symbol name] => name = Form.env.name
  | _ => false

theorem Builtin.name_eq_of_ofName? {name : String} {b : Builtin} (found : ofName? name = some b) :
    b.name = name := by
  have called := List.find?_some found
  exact of_decide_eq_true called

namespace Eval

/-- The steps of the machine, all but one of them, have the relation to themselves, and so have
computations in turn. -/
structure Congruence (R : {α : Type} → Eval α → Eval α → Prop) : Prop where
  pure : ∀ {α : Type} (a : α), R (pure a : Eval α) (pure a)
  throw : ∀ {α : Type} (e : EvalError), R (throw e : Eval α) (throw e)
  bind : ∀ {α β : Type} {x y : Eval α} {next next' : α → Eval β}, R x y →
    (∀ a, R (next a) (next' a)) → R (x >>= next) (y >>= next')
  define : ∀ f name v, R (define f name v) (define f name v)
  undefine : ∀ f name, R (undefine f name) (undefine f name)
  newFrame : ∀ bindings outer, R (newFrame bindings outer) (newFrame bindings outer)
  newProcedure : ∀ params body f, R (newProcedure params body f) (newProcedure params body f)
  resolve : ∀ name f, R (resolve name f) (resolve name f)
  print : ∀ text, R (print text) (print text)
  calling : ∀ name args, R (log (.calling name args)) (log (.calling name args))
  operatorEvaluated : ∀ form operator,
    R (log (.operatorEvaluated form operator)) (log (.operatorEvaluated form operator))
  choose : ∀ n, R (choose n) (choose n)

/-- The evaluations of all expressions have it. -/
def Abreast (R : {α : Type} → Eval α → Eval α → Prop) (ev ev' : Evaluator) : Prop :=
  ∀ expr f, R (ev expr f) (ev' expr f)

end Eval

open Eval

variable {R : {α : Type} → Eval α → Eval α → Prop} (congruence : Congruence R)

include congruence

namespace Eval

theorem Congruence.ofExcept {α : Type} (r : Except EvalError α) :
    R (ofExcept r : Eval α) (ofExcept r) := by
  cases r with
  | ok a => exact congruence.pure a
  | error e => exact congruence.throw e

theorem Congruence.evaluateAll {ev ev' : Evaluator} (abreast : Abreast R ev ev') (f : FrameId)
    (exprs : List Value) : R (evaluateAll ev f exprs) (evaluateAll ev' f exprs) := by
  induction exprs with
  | nil => exact congruence.pure _
  | cons expr rest ih =>
    refine congruence.bind (abreast expr f) fun v => ?_
    exact congruence.bind ih fun vs => congruence.pure _

end Eval

namespace Procedure

theorem congruence_make (params body : Value) (f : FrameId) :
    R (make params body f) (make params body f) := by
  simp only [make]
  split
  · refine congruence.bind (congruence.ofExcept _) fun names => ?_
    split
    · exact congruence.newProcedure _ _ _
    · exact congruence.throw _
  · exact congruence.throw _

theorem congruence_apply {ev ev' : Evaluator} (abreast : Abreast R ev ev') (name : String)
    (params : List String) (body : Value) (captured : FrameId) (args : List Value) :
    R (apply ev name params body captured args) (apply ev' name params body captured args) := by
  have extended : R (extend name params args captured) (extend name params args captured) :=
    congruence.bind (congruence.ofExcept _) fun _ => congruence.newFrame _ _
  refine congruence.bind (congruence.calling _ _) fun _ => ?_
  exact congruence.bind extended fun i => abreast body i

end Procedure

namespace Primitive

theorem congruence_run (p : Primitive) (args : List Value) : R (p.run args) (p.run args) := by
  have picks (values : List Value) : R (pick values) (pick values) := by
    cases values with
    | nil => exact congruence.pure _
    | cons first rest => exact congruence.bind (congruence.choose _) fun i => congruence.pure _
  simp only [run]
  split
  · refine congruence.bind (congruence.ofExcept _) fun text => ?_
    exact congruence.bind (congruence.print _) fun _ => congruence.pure _
  · exact congruence.bind (congruence.ofExcept _) picks
  · exact picks _
  · exact congruence.ofExcept _

end Primitive

namespace Form

theorem congruence_success {x : Eval Unit} (changes : R x x) :
    R (do x; return success) (do x; return success) :=
  congruence.bind changes fun _ => congruence.pure _

theorem congruence_runUndef (f : FrameId) (target : Value) :
    R (runUndef f target) (runUndef f target) := by
  simp only [runUndef]
  split
  · exact congruence_success congruence (congruence.undefine _ _)
  · exact congruence.throw _

variable {ev ev' : Evaluator} (abreast : Abreast R ev ev') (f : FrameId)

include abreast

theorem congruence_runDefine (target body : Value) :
    R (runDefine ev f target body) (runDefine ev' f target body) := by
  simp only [runDefine]
  split
  · refine congruence.bind (abreast body f) fun v => ?_
    exact congruence_success congruence (congruence.define _ _ _)
  · exact congruence.throw _
  · refine congruence.bind (Procedure.congruence_make congruence _ _ _) fun v => ?_
    exact congruence_success congruence (congruence.define _ _ _)
  · exact congruence.throw _
  · exact congruence.throw _

theorem congruence_bindEach (inside : FrameId) (bindings : List Value) :
    R (bindEach ev f inside bindings) (bindEach ev' f inside bindings) := by
  induction bindings with
  | nil => exact congruence.pure _
  | cons binding rest ih =>
    unfold bindEach
    split
    · exact congruence.pure _
    · next same =>
      cases same
      refine congruence.bind (abreast _ f) fun v => ?_
      exact congruence.bind (congruence.define _ _ _) fun _ => ih
    all_goals exact congruence.throw _

theorem congruence_runLet (bindings body : Value) :
    R (runLet ev f bindings body) (runLet ev' f bindings body) := by
  simp only [runLet]
  split
  · refine congruence.bind (congruence.newFrame _ _) fun inside => ?_
    refine congruence.bind (congruence_bindEach congruence abreast f inside _) fun _ => ?_
    exact abreast body inside
  · exact congruence.throw _

theorem congruence_runIf (test yes no : Value) :
    R (runIf ev f test yes no) (runIf ev' f test yes no) := by
  refine congruence.bind (abreast test f) fun v => ?_
  split <;> exact abreast _ f

theorem congruence_runCond (branches : List Value) :
    R (runCond ev f branches) (runCond ev' f branches) := by
  induction branches with
  | nil => exact congruence.throw _
  | cons branch rest ih =>
    unfold runCond
    split
    · exact congruence.throw _
    · next same =>
      cases same
      refine congruence.bind (abreast _ f) fun v => ?_
      split
      · exact abreast _ f
      · exact ih
    all_goals exact congruence.throw _

theorem congruence_sequence (last : Value) (exprs : List Value) :
    R (sequence ev f last exprs) (sequence ev' f last exprs) := by
  induction exprs generalizing last with
  | nil => exact congruence.pure _
  | cons expr rest ih => exact congruence.bind (abreast expr f) ih

theorem congruence_run (form : Form) (operands : List Value)
    (names : form = .env → operands = [] → R (Eval.names f) (Eval.names f)) :
    R (run ev f form operands) (run ev' f form operands) := by
  simp only [run]
  split
  · exact congruence_runDefine congruence abreast f _ _
  · exact congruence_runUndef congruence f _
  · exact congruence_runLet congruence abreast f _ _
  · exact Procedure.congruence_make congruence _ _ _
  · exact congruence_runIf congruence abreast f _ _ _
  · exact congruence_runCond congruence abreast f _
  · refine congruence.bind (abreast _ f) fun v => ?_
    exact congruence.bind (congruence.ofExcept _) fun type => congruence.pure _
  · exact congruence.pure _
  · exact congruence.bind (abreast _ f) fun expr => abreast expr f
  · exact congruence.bind (names rfl rfl) fun names => congruence.pure _
  · exact congruence_sequence congruence abreast f _ _
  · exact congruence.throw _

end Form

namespace Eval

variable {ev ev' : Evaluator} (abreast : Abreast R ev ev') (f : FrameId)

include abreast

theorem Congruence.callName (name : String) (operands : List Value)
    (names : name = Form.env.name → operands = [] → R (names f) (names f)) :
    R (callName ev f name operands) (callName ev' f name operands) := by
  simp only [Eval.callName]
  split
  · next b found =>
    refine congruence.bind (congruence.ofExcept _) fun _ => ?_
    cases b with
    | form s =>
      refine Form.congruence_run congruence abreast f s operands fun env => names ?_
      rw [← Builtin.name_eq_of_ofName? found, env]
      rfl
    | primitive p =>
      exact congruence.bind (congruence.evaluateAll abreast f operands) fun args =>
        Primitive.congruence_run congruence p args
  · refine congruence.bind (congruence.resolve name f) fun v => ?_
    split
    · refine congruence.bind (congruence.evaluateAll abreast f operands) fun args => ?_
      exact Procedure.congruence_apply congruence abreast _ _ _ _ args
    · exact congruence.throw _

theorem Congruence.call (head : Value) (operands : List Value)
    (names : head = .symbol Form.env.name → operands = [] → R (names f) (names f)) :
    R (call ev f head operands) (call ev' f head operands) := by
  simp only [Eval.call]
  split
  · exact congruence.callName abreast f _ operands fun env => names (congrArg Value.symbol env)
  · refine congruence.bind (abreast _ f) fun operator => ?_
    exact congruence.bind (congruence.operatorEvaluated _ _) fun _ => abreast _ f
  · refine congruence.bind (congruence.evaluateAll abreast f operands) fun args => ?_
    exact Procedure.congruence_apply congruence abreast _ _ _ _ args
  · exact congruence.throw _

theorem Congruence.step (expr : Value) (names : expr.listsNames = true → R (names f) (names f)) :
    R (step ev expr f) (step ev' expr f) := by
  simp only [Eval.step]
  split
  · split
    · exact congruence.pure _
    · exact congruence.resolve _ f
  · exact congruence.pure _
  · refine congruence.call abreast f _ _ ?_
    rintro rfl rfl
    exact names rfl
  · refine congruence.call abreast f _ _ ?_
    rintro rfl rfl
    exact names rfl
  · exact congruence.pure _

end Eval

end SmallLisp
