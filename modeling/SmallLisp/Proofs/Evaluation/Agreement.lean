import SmallLisp.Evaluation.Builtin
import SmallLisp.Proofs.Environment.Alike

/-! Builtins and the binding of arguments on alike operands. The results are alike, and where
one side fails the other fails in the same way. -/
namespace SmallLisp

section

variable {α α' β β' : Type}

/-- Results that are related, or the same failure twice. -/
inductive Agree (R : α → β → Prop) : Except EvalError α → Except EvalError β → Prop where
  | ok {a : α} {b : β} : R a b → Agree R (.ok a) (.ok b)
  | error (e : EvalError) : Agree R (.error e) (.error e)

variable {R : α → β → Prop} {R' : α' → β' → Prop} {r : Except EvalError α} {r' : Except EvalError β}

theorem Agree.bind {next : α → Except EvalError α'} {next' : β → Except EvalError β'}
    (agree : Agree R r r') (rest : ∀ a b, R a b → Agree R' (next a) (next' b)) :
    Agree R' (r >>= next) (r' >>= next') := by
  cases agree with
  | ok related => exact rest _ _ related
  | error e => exact .error e

theorem agree_refl (r : Except EvalError α) : Agree Eq r r := by
  cases r with
  | ok a => exact .ok rfl
  | error e => exact .error e

theorem forall₂_getElem? {l : List α} {l' : List β} (each : List.Forall₂ R l l') (i : Nat) :
    Option.Rel R l[i]? l'[i]? := by
  induction each generalizing i with
  | nil => exact .none
  | cons first _ ih =>
    cases i with
    | zero => exact .some first
    | succ i => exact ih i

end

open Value (AlikeAll)

variable {μ : Matching} {v w : Value} {args args' : List Value}

namespace ArithmeticOp

variable {op : ArithmeticOp}

theorem operand_eq (alike : v.Alike μ w) : op.operand v = op.operand w := by
  cases alike <;> rfl

theorem operands_eq (each : AlikeAll μ args args') : op.operands args = op.operands args' := by
  induction each with
  | nil => rfl
  | cons first _ ih => rw [operands, operands, operand_eq first, ih]

theorem agree_fold (each : AlikeAll μ args args') :
    Agree (Value.Alike μ) (op.fold args) (op.fold args') := by
  rw [fold, fold, operands_eq each]
  apply (agree_refl (op.operands args')).bind
  rintro operands _ rfl
  cases operands with
  | nil => exact .error _
  | cons first rest =>
    apply (agree_refl (rest.foldlM op.step first)).bind
    rintro total _ rfl
    cases total with
    | int n => exact .ok (.int n)
    | float x => exact .ok (.float x)

end ArithmeticOp

namespace Primitive

variable {p : Primitive}

theorem agree_items (p : Primitive) (alike : v.Alike μ w) :
    Agree (AlikeAll μ) (p.items v) (p.items w) := by
  cases alike with
  | list length each => exact .ok (Value.forall₂_of_zip length each)
  | _ => exact .error _

theorem agree_string (p : Primitive) (alike : v.Alike μ w) :
    Agree Eq (p.string v) (p.string w) := by
  cases alike with
  | str text => exact .ok rfl
  | _ => exact .error _

theorem agree_itemAt (each : AlikeAll μ args args') (index : v.Alike μ w) :
    Agree (Value.Alike μ) (itemAt args v) (itemAt args' w) := by
  cases index with
  | int n =>
    simp only [itemAt]
    have found := forall₂_getElem? each (n - 1).toNat
    generalize args[(n - 1).toNat]? = item, args'[(n - 1).toNat]? = item' at found
    split
    · cases found with
      | some value => exact .ok value
      | none => exact .error _
    · exact .error _
  | _ => exact .error _

theorem agree_measure (alike : v.Alike μ w) : Agree (Value.Alike μ) (measure v) (measure w) := by
  cases alike with
  | list length each =>
    rw [measure, measure, length]
    exact .ok (.int _)
  | str text => exact .ok (.int _)
  | _ => exact .error _

theorem displays_eq (separator : String) (each : AlikeAll μ args args') :
    displays separator args = displays separator args' := by
  have same : args.mapM Value.display? = args'.mapM Value.display? := by
    induction each with
    | nil => rfl
    | cons first _ ih => rw [List.mapM_cons, List.mapM_cons, first.display?_eq, ih]
  rw [displays, displays, same]

/-- Of operands in another number than the arity says there is no result. -/
theorem result_of_length_ne {n : Nat} (exact : p.arity.exact = some n) (other : args.length ≠ n) :
    p.result args = .error (.misapplied p.name) := by
  rcases args with _ | ⟨a, _ | ⟨b, _ | ⟨c, rest⟩⟩⟩ <;> cases p <;> cases exact <;>
    first | rfl | exact absurd rfl other

/-- Alike operands have alike results. -/
theorem agree_result (oneToOne : μ.OneToOne) (each : AlikeAll μ args args') :
    Agree (Value.Alike μ) (p.result args) (p.result args') := by
  have misfit {n : Nat} (exact : p.arity.exact = some n) (other : args.length ≠ n) :
      Agree (Value.Alike μ) (p.result args) (p.result args') := by
    rw [result_of_length_ne exact other, result_of_length_ne exact (each.length_eq ▸ other)]
    exact .error _
  have one (exact : p.arity.exact = some 1)
      (fit : ∀ v w, v.Alike μ w → Agree (Value.Alike μ) (p.result [v]) (p.result [w])) :
      Agree (Value.Alike μ) (p.result args) (p.result args') := by
    rcases each with _ | ⟨first, _ | ⟨_, _⟩⟩
    · exact misfit exact (by simp)
    · exact fit _ _ first
    · exact misfit exact (by simp)
  have two (exact : p.arity.exact = some 2)
      (fit : ∀ v w v' w', v.Alike μ w → v'.Alike μ w' →
        Agree (Value.Alike μ) (p.result [v, v']) (p.result [w, w'])) :
      Agree (Value.Alike μ) (p.result args) (p.result args') := by
    rcases each with _ | ⟨first, _ | ⟨second, _ | ⟨_, _⟩⟩⟩
    · exact misfit exact (by simp)
    · exact misfit exact (by simp)
    · exact fit _ _ _ _ first second
    · exact misfit exact (by simp)
  have truth {b b' : Bool} (same : b = b') :
      Agree (Value.Alike μ) (.ok (.bool b)) (.ok (.bool b')) := same ▸ .ok (.bool b)
  cases p with
  | arithmetic op => exact op.agree_fold each
  | equal =>
    refine two rfl fun v w v' w' first second => ?_
    rw [result, result, first.equal?_eq oneToOne second]
    exact (agree_refl _).bind fun b _ same => same ▸ .ok (.bool b)
  | unequal =>
    refine two rfl fun v w v' w' first second => ?_
    rw [result, result, first.equal?_eq oneToOne second]
    exact (agree_refl _).bind fun b _ same => same ▸ .ok (.bool !b)
  | order op => exact two rfl fun v w v' w' first second => truth (by rw [first.order?_eq second])
  | and =>
    exact two rfl fun v w v' w' first second => truth (by rw [first.truthy_eq, second.truthy_eq])
  | or =>
    exact two rfl fun v w v' w' first second => truth (by rw [first.truthy_eq, second.truthy_eq])
  | not => exact one rfl fun v w first => truth (by rw [first.truthy_eq])
  | listRef =>
    refine two rfl fun v w v' w' first second => ?_
    exact (agree_items _ first).bind fun items items' listed => agree_itemAt listed second
  | append =>
    refine two rfl fun v w v' w' first second => ?_
    apply (agree_items _ first).bind
    intro xs xs' front
    apply (agree_items _ second).bind
    intro ys ys' back
    exact .ok (.ofItems (List.rel_append front back))
  | car =>
    refine one rfl fun v w first => ?_
    apply (agree_items _ first).bind
    intro items items' listed
    cases listed with
    | nil => exact .ok .nil
    | cons head _ => exact .ok head
  | cdr =>
    refine one rfl fun v w first => ?_
    apply (agree_items _ first).bind
    intro items items' listed
    cases listed with
    | nil => exact .ok (.ofItems .nil)
    | cons _ tail => exact .ok (.ofItems tail)
  | length => exact one rfl fun v w first => agree_measure first
  | cons =>
    refine two rfl fun v w v' w' first second => ?_
    exact (agree_items _ second).bind fun items items' listed => .ok (.ofItems (.cons first listed))
  | list => exact .ok (.ofItems each)
  | cat =>
    rw [result, result, displays_eq "" each]
    exact (agree_refl _).bind fun text _ same => same ▸ .ok (.str text)
  | uppercase =>
    refine one rfl fun v w first => ?_
    exact (agree_string _ first).bind fun text _ same => same ▸ .ok (.str _)
  | lowercase =>
    refine one rfl fun v w first => ?_
    exact (agree_string _ first).bind fun text _ same => same ▸ .ok (.str _)
  | rand => exact .error _
  | print => exact .error _

end Primitive

namespace Procedure

theorem agree_paramNames (each : AlikeAll μ args args') :
    Agree Eq (paramNames args) (paramNames args') := by
  induction each with
  | nil => exact .ok rfl
  | cons first _ ih =>
    cases first with
    | symbol name => exact ih.bind fun names _ same => same ▸ .ok rfl
    | _ => exact .error _

theorem agree_pairUp (name : String) (params : List String) (each : AlikeAll μ args args') :
    Agree (Bindings.Alike μ) (pairUp name params args) (pairUp name params args') := by
  induction params generalizing args args' with
  | nil => exact .ok .nil
  | cons p params ih =>
    simp only [pairUp]
    split
    · cases params with
      | nil => exact .error _
      | cons rest _ => exact .ok (.cons ⟨rfl, .ofItems each⟩ .nil)
    · cases each with
      | nil => exact .error _
      | cons first others =>
        exact (ih others).bind fun ds ds' same => .ok (.cons ⟨rfl, first⟩ same)

theorem agree_bind (name : String) (params : List String) (each : AlikeAll μ args args') :
    Agree (Bindings.Alike μ) (bind name params args) (bind name params args') := by
  have counted : checkCount name params args = checkCount name params args' := by
    rw [checkCount, checkCount, each.length_eq]
  rw [bind, bind, counted]
  apply (agree_refl (checkCount name params args')).bind
  intro _ _ _
  exact (agree_pairUp name params each).bind fun ds ds' same =>
    .ok (Bindings.alike_ofDefinitions same)

end Procedure

end SmallLisp
