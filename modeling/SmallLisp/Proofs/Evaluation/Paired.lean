import SmallLisp.Proofs.Evaluation.Renaming

/-! The evaluator cannot tell linked machines apart. Alike expressions, evaluated in frames that
stand for each other, end alike, and leave the machines linked; so neither the numbers that frames
and procedures have nor the frames that stand for none are ever seen. -/
namespace SmallLisp

open Eval Value

variable {r : Renaming} {m m' : Machine} {ev ev' : Evaluator} {f g : FrameId}

namespace Eval

theorem alike_constants {μ : Matching} : ∀ d ∈ constants, d.2.Alike μ d.2 := by
  simp only [constants, List.forall_mem_cons]
  exact ⟨.nil, .bool _, .float _, .float _, .float _, .float _, .float _, .float _, .float _, nofun⟩

theorem paired_resolve (linked : Linked r m m') (same : (r.at m).frames f g) (name : String) :
    PairedValue r (resolve name f) (resolve name g) m m' := by
  simp only [resolve]
  split
  · next v found =>
    obtain ⟨before, rest, member, _⟩ := List.lookup_eq_some_iff.mp found
    exact paired_pure linked (alike_constants (name, v) (by simp [member]))
  · exact paired_lookup linked same name

theorem paired_evaluateAll (paired : PairedEvaluator r ev ev') (linked : Linked r m m')
    (same : (r.at m).frames f g) {exprs exprs' : List Value}
    (each : AlikeAll (r.at m) exprs exprs') :
    Paired r (evaluateAll ev f exprs) (evaluateAll ev' g exprs') m m'
      fun vs ws m₁ _ => AlikeAll (r.at m₁) vs ws := by
  induction exprs generalizing m m' exprs' with
  | nil =>
    cases each
    exact paired_pure linked .nil
  | cons expr rest ih =>
    cases each with
    | cons first others =>
      apply (paired expr _ f g m m' linked first same).bind
      intro v w m₁ m₁' linked₁ grows value
      apply (ih linked₁ (grows.1 _ _ same) (AlikeAll.mono others grows)).bind
      intro vs ws m₂ m₂' linked₂ grows₂ values
      exact paired_pure linked₂ (.cons (value.mono grows₂) values)

end Eval

namespace Procedure

theorem paired_make (linked : Linked r m m') (same : (r.at m).frames f g)
    {params params' body body' : Value} (listed : params.Alike (r.at m) params')
    (alike : body.Alike (r.at m) body') :
    PairedValue r (make params body f) (make params' body' g) m m' := by
  cases listed with
  | list length each =>
    apply (paired_ofExcept linked (fun ns ns' _ _ => ns = ns')
      (agree_paramNames (forall₂_of_zip length each)) fun _ _ => id).bind
    rintro names _ m₁ m₁' linked₁ grows rfl
    split
    · exact paired_newProcedure linked₁ names (alike.mono grows) (grows.1 _ _ same)
    · exact paired_throw linked₁ _
  | _ => exact paired_throw linked _

theorem paired_apply (paired : PairedEvaluator r ev ev') (linked : Linked r m m')
    (same : (r.at m).frames f g) (name : String) (params : List String) {body body' : Value}
    (alike : body.Alike (r.at m) body') {args args' : List Value}
    (each : AlikeAll (r.at m) args args') :
    PairedValue r (apply ev name params body f args) (apply ev' name params body' g args')
      m m' := by
  simp only [apply, extend]
  apply (paired_log linked (.calling name args) (.calling name args') rfl
    (.cons (.ofItems each) .nil)).bind
  intro _ _ m₁ m₁' linked₁ grows₁ _
  rw [bind_assoc, bind_assoc]
  apply (paired_ofExcept linked₁ (fun b b' m₁ _ => Bindings.Alike (r.at m₁) b b')
    (agree_bind name params (AlikeAll.mono each grows₁)) fun _ _ => id).bind
  intro b b' m₂ m₂' linked₂ grows₂ bindings
  have grows := Matching.le_trans grows₁ grows₂
  apply (paired_newFrame linked₂ bindings (grows.1 _ _ same)).bind
  intro i j m₃ m₃' linked₃ grows₃ new
  exact paired body body' i j m₃ m₃' linked₃ (alike.mono (Matching.le_trans grows grows₃)) new

end Procedure

namespace Primitive

theorem paired_pick (linked : Linked r m m') {values values' : List Value}
    (each : AlikeAll (r.at m) values values') :
    PairedValue r (pick values) (pick values') m m' := by
  cases each with
  | nil => exact paired_pure linked .nil
  | @cons first first' rest rest' head tail =>
    have each : AlikeAll (r.at m) (first :: rest) (first' :: rest') := .cons head tail
    have length := each.length_eq
    simp only [pick]
    rw [← length]
    apply (paired_choose linked _).bind
    rintro i _ m₁ m₁' linked₁ grows rfl
    apply paired_pure linked₁
    have found := forall₂_getElem? each i
    rw [List.getD_eq_getElem?_getD, List.getD_eq_getElem?_getD]
    generalize (first :: rest)[i]? = item, (first' :: rest')[i]? = item' at found
    cases found with
    | some value => exact value.mono grows
    | none => exact head.mono grows

theorem paired_run (p : Primitive) (linked : Linked r m m') {args args' : List Value}
    (each : AlikeAll (r.at m) args args') : PairedValue r (p.run args) (p.run args') m m' := by
  have computed : PairedValue r (ofExcept (p.result args)) (ofExcept (p.result args')) m m' :=
    paired_ofExcept linked _ (agree_result (r.oneToOne m) each) fun _ _ => id
  cases p with
  | print =>
    apply (paired_ofExcept linked (fun text text' _ _ => text = text')
      (displays_eq " " each ▸ agree_refl _) fun _ _ => id).bind
    rintro text _ m₁ m₁' linked₁ _ rfl
    apply (paired_print linked₁ _).bind
    intro _ _ m₂ m₂' linked₂ _ _
    exact paired_pure linked₂ .nil
  | rand =>
    rcases each with _ | ⟨first, _ | ⟨second, rest⟩⟩
    · exact paired_pick linked .nil
    · apply (paired_ofExcept linked (fun items items' m₁ _ => AlikeAll (r.at m₁) items items')
        (agree_items .rand first) fun _ _ => id).bind
      intro items items' m₁ m₁' linked₁ _ values
      exact paired_pick linked₁ values
    · exact paired_pick linked (.cons first (.cons second rest))
  | _ => exact computed

end Primitive

namespace Form

/-- Operands in another number than the arity says are not looked at. -/
theorem run_of_length_ne {ev : Evaluator} {form : Form} {n : Nat} {operands : List Value}
    (exact : form.arity.exact = some n) (other : operands.length ≠ n) :
    run ev f form operands = throw (.misapplied form.name) := by
  rcases operands with _ | ⟨a, _ | ⟨b, _ | ⟨c, _ | ⟨d, rest⟩⟩⟩⟩ <;> cases form <;> cases exact <;>
    first | rfl | exact absurd rfl other

variable (paired : PairedEvaluator r ev ev')

theorem paired_success {x y : Eval Unit}
    (changes : Paired r x y m m' fun _ _ _ _ => True) :
    PairedValue r (do x; return success) (do y; return success) m m' :=
  changes.bind fun _ _ _ _ linked₁ _ _ => paired_pure linked₁ (.str _)

theorem paired_runUndef (linked : Linked r m m') (same : (r.at m).frames f g)
    {target target' : Value} (shape : target.Alike (r.at m) target') :
    PairedValue r (runUndef f target) (runUndef g target') m m' := by
  cases shape with
  | symbol name => exact paired_success (paired_undefine linked same name)
  | _ => exact paired_throw linked _

include paired

theorem paired_runDefine (linked : Linked r m m') (same : (r.at m).frames f g)
    {target target' body body' : Value} (shape : target.Alike (r.at m) target')
    (alike : body.Alike (r.at m) body') :
    PairedValue r (runDefine ev f target body) (runDefine ev' g target' body') m m' := by
  have defines (name : String) {x y : Eval Value} (computed : PairedValue r x y m m') :
      PairedValue r (do Eval.define f name (← x); return success)
        (do Eval.define g name (← y); return success) m m' := by
    apply computed.bind
    intro v w m₁ m₁' linked₁ grows value
    exact paired_success (paired_define linked₁ (grows.1 _ _ same) name value)
  cases shape with
  | symbol name => exact defines name (paired body body' f g m m' linked alike same)
  | list length each =>
    cases forall₂_of_zip length each with
    | nil => exact paired_throw linked _
    | cons head params =>
      cases head with
      | symbol name =>
        exact defines name (Procedure.paired_make linked same (.ofItems params) alike)
      | _ => exact paired_throw linked _
  | _ => exact paired_throw linked _

theorem paired_bindEach (linked : Linked r m m') (outside : (r.at m).frames f g) {i j : FrameId}
    (inside : (r.at m).frames i j) {bindings bindings' : List Value}
    (each : AlikeAll (r.at m) bindings bindings') :
    Paired r (bindEach ev f i bindings) (bindEach ev' g j bindings') m m' fun _ _ _ _ => True := by
  induction bindings generalizing m m' bindings' with
  | nil =>
    cases each
    exact paired_pure linked trivial
  | cons binding rest ih =>
    cases each with
    | cons shape others =>
      cases shape with
      | list length items =>
        rcases forall₂_of_zip length items with _ | ⟨label, _ | ⟨expr, _ | ⟨_, _⟩⟩⟩
        · exact paired_throw linked _
        · simp only [bindEach]
          exact paired_throw linked _
        · cases label with
          | symbol name =>
            apply (paired _ _ f g m m' linked expr outside).bind
            intro v w m₁ m₁' linked₁ grows₁ value
            apply (paired_define linked₁ (grows₁.1 _ _ inside) name value).bind
            intro _ _ m₂ m₂' linked₂ grows₂ _
            have grows := Matching.le_trans grows₁ grows₂
            exact ih linked₂ (grows.1 _ _ outside) (grows.1 _ _ inside) (AlikeAll.mono others grows)
          | _ => exact paired_throw linked _
        · simp only [bindEach]
          rw [length]
          exact paired_throw linked _
      | _ => exact paired_throw linked _

theorem paired_runLet (linked : Linked r m m') (same : (r.at m).frames f g)
    {bindings bindings' body body' : Value} (shape : bindings.Alike (r.at m) bindings')
    (alike : body.Alike (r.at m) body') :
    PairedValue r (runLet ev f bindings body) (runLet ev' g bindings' body') m m' := by
  cases shape with
  | list length each =>
    apply (paired_newFrame linked .nil same).bind
    intro i j m₁ m₁' linked₁ grows₁ new
    have bindings := AlikeAll.mono (forall₂_of_zip length each) grows₁
    apply (paired_bindEach paired linked₁ (grows₁.1 _ _ same) new bindings).bind
    intro _ _ m₂ m₂' linked₂ grows₂ _
    exact paired body body' i j m₂ m₂' linked₂ (alike.mono (Matching.le_trans grows₁ grows₂))
      (grows₂.1 _ _ new)
  | _ => exact paired_throw linked _

theorem paired_runIf (linked : Linked r m m') (same : (r.at m).frames f g)
    {test test' yes yes' no no' : Value} (first : test.Alike (r.at m) test')
    (second : yes.Alike (r.at m) yes') (third : no.Alike (r.at m) no') :
    PairedValue r (runIf ev f test yes no) (runIf ev' g test' yes' no') m m' := by
  simp only [runIf]
  apply (paired test test' f g m m' linked first same).bind
  intro v w m₁ m₁' linked₁ grows value
  rw [value.truthy_eq]
  split
  · exact paired yes yes' f g m₁ m₁' linked₁ (second.mono grows) (grows.1 _ _ same)
  · exact paired no no' f g m₁ m₁' linked₁ (third.mono grows) (grows.1 _ _ same)

theorem paired_runCond (linked : Linked r m m') (same : (r.at m).frames f g)
    {branches branches' : List Value} (each : AlikeAll (r.at m) branches branches') :
    PairedValue r (runCond ev f branches) (runCond ev' g branches') m m' := by
  induction branches generalizing m m' branches' with
  | nil =>
    cases each
    exact paired_throw linked _
  | cons branch rest ih =>
    cases each with
    | cons shape others =>
      cases shape with
      | list length items =>
        rcases forall₂_of_zip length items with _ | ⟨test, _ | ⟨consequent, _ | ⟨_, _⟩⟩⟩
        · exact paired_throw linked _
        · exact paired_throw linked _
        · apply (paired _ _ f g m m' linked test same).bind
          intro v w m₁ m₁' linked₁ grows value
          rw [value.truthy_eq]
          split
          · exact paired _ _ f g m₁ m₁' linked₁ (consequent.mono grows) (grows.1 _ _ same)
          · exact ih linked₁ (grows.1 _ _ same) (AlikeAll.mono others grows)
        · simp only [runCond]
          rw [length]
          exact paired_throw linked _
      | _ => exact paired_throw linked _

theorem paired_sequence (linked : Linked r m m') (same : (r.at m).frames f g) {last last' : Value}
    (value : last.Alike (r.at m) last') {exprs exprs' : List Value}
    (each : AlikeAll (r.at m) exprs exprs') :
    PairedValue r (sequence ev f last exprs) (sequence ev' g last' exprs') m m' := by
  induction exprs generalizing m m' last last' exprs' with
  | nil =>
    cases each
    exact paired_pure linked value
  | cons expr rest ih =>
    cases each with
    | cons first others =>
      apply (paired expr _ f g m m' linked first same).bind
      intro v w m₁ m₁' linked₁ grows result
      exact ih linked₁ (grows.1 _ _ same) result (AlikeAll.mono others grows)

theorem paired_run (form : Form) (linked : Linked r m m') (same : (r.at m).frames f g)
    {operands operands' : List Value} (each : AlikeAll (r.at m) operands operands') :
    PairedValue r (run ev f form operands) (run ev' g form operands') m m' := by
  have misfit {n : Nat} (exact : form.arity.exact = some n) (other : operands.length ≠ n) :
      PairedValue r (run ev f form operands) (run ev' g form operands') m m' := by
    rw [run_of_length_ne exact other, run_of_length_ne exact (each.length_eq ▸ other)]
    exact paired_throw linked _
  have one (exact : form.arity.exact = some 1)
      (fit : ∀ v w, v.Alike (r.at m) w →
        PairedValue r (run ev f form [v]) (run ev' g form [w]) m m') :
      PairedValue r (run ev f form operands) (run ev' g form operands') m m' := by
    rcases each with _ | ⟨first, _ | ⟨_, _⟩⟩
    · exact misfit exact (by simp)
    · exact fit _ _ first
    · exact misfit exact (by simp)
  have two (exact : form.arity.exact = some 2)
      (fit : ∀ v w v' w', v.Alike (r.at m) w → v'.Alike (r.at m) w' →
        PairedValue r (run ev f form [v, v']) (run ev' g form [w, w']) m m') :
      PairedValue r (run ev f form operands) (run ev' g form operands') m m' := by
    rcases each with _ | ⟨first, _ | ⟨second, _ | ⟨_, _⟩⟩⟩
    · exact misfit exact (by simp)
    · exact misfit exact (by simp)
    · exact fit _ _ _ _ first second
    · exact misfit exact (by simp)
  cases form with
  | define =>
    exact two rfl fun _ _ _ _ target body => paired_runDefine paired linked same target body
  | undef => exact one rfl fun _ _ target => paired_runUndef linked same target
  | letIn =>
    exact two rfl fun _ _ _ _ bindings body => paired_runLet paired linked same bindings body
  | lambda =>
    exact two rfl fun _ _ _ _ params body => Procedure.paired_make linked same params body
  | ifElse =>
    rcases each with _ | ⟨test, _ | ⟨yes, _ | ⟨no, _ | ⟨_, _⟩⟩⟩⟩
    · exact misfit rfl (by simp)
    · exact misfit rfl (by simp)
    · exact misfit rfl (by simp)
    · exact paired_runIf paired linked same test yes no
    · exact misfit rfl (by simp)
  | cond => exact paired_runCond paired linked same each
  | type =>
    refine one rfl fun expr expr' alike => ?_
    apply (paired expr expr' f g m m' linked alike same).bind
    intro v w m₁ m₁' linked₁ _ value
    rw [value.typeName?_eq]
    apply (paired_ofExcept linked₁ (fun type type' _ _ => type = type') (agree_refl w.typeName?)
      fun _ _ => id).bind
    rintro type _ m₂ m₂' linked₂ _ rfl
    exact paired_pure linked₂ (.str type)
  | quote => exact one rfl fun _ _ expr => paired_pure linked expr
  | eval =>
    refine one rfl fun expr expr' alike => ?_
    apply (paired expr expr' f g m m' linked alike same).bind
    intro v w m₁ m₁' linked₁ grows value
    exact paired v w f g m₁ m₁' linked₁ value (grows.1 _ _ same)
  | env =>
    cases each with
    | cons => exact misfit rfl (by simp)
    | nil =>
      apply (paired_names linked same).bind
      rintro ns _ m₁ m₁' linked₁ _ rfl
      refine paired_pure linked₁ (.ofItems ?_)
      exact List.forall₂_map_left_iff.mpr (List.forall₂_map_right_iff.mpr
        (List.forall₂_same.mpr fun n _ => .symbol n))
  | begin => exact paired_sequence paired linked same .nil each

end Form

namespace Eval

variable (paired : PairedEvaluator r ev ev')

include paired

theorem paired_callName (linked : Linked r m m') (same : (r.at m).frames f g) (name : String)
    {operands operands' : List Value} (each : AlikeAll (r.at m) operands operands') :
    PairedValue r (callName ev f name operands) (callName ev' g name operands') m m' := by
  simp only [callName]
  split
  · next b _ =>
    simp only [runBuiltin]
    rw [each.length_eq]
    apply (paired_ofExcept linked (fun _ _ _ _ => True) (agree_refl (b.checkArity operands'.length))
      fun _ _ _ => trivial).bind
    intro _ _ m₁ m₁' linked₁ grows₁ _
    have operands := AlikeAll.mono each grows₁
    cases b with
    | form s => exact Form.paired_run paired s linked₁ (grows₁.1 _ _ same) operands
    | primitive p =>
      apply (paired_evaluateAll paired linked₁ (grows₁.1 _ _ same) operands).bind
      intro vs ws m₂ m₂' linked₂ _ values
      exact Primitive.paired_run p linked₂ values
  · apply (paired_resolve linked same name).bind
    intro v w m₁ m₁' linked₁ grows₁ value
    have called := value.notCallable_eq name
    cases value with
    | proc identities body frames =>
      apply (paired_evaluateAll paired linked₁ (grows₁.1 _ _ same) (AlikeAll.mono each grows₁)).bind
      intro vs ws m₂ m₂' linked₂ grows₂ values
      exact Procedure.paired_apply paired linked₂ (grows₂.1 _ _ frames) name _ (body.mono grows₂)
        values
    | _ => exact paired_throw linked₁ _

theorem paired_call (linked : Linked r m m') (same : (r.at m).frames f g) {head head' : Value}
    (shape : head.Alike (r.at m) head') {operands operands' : List Value}
    (each : AlikeAll (r.at m) operands operands') :
    PairedValue r (call ev f head operands) (call ev' g head' operands') m m' := by
  cases shape with
  | symbol name => exact paired_callName paired linked same name each
  | list length items =>
    apply (paired _ _ f g m m' linked (.list length items) same).bind
    intro v w m₁ m₁' linked₁ grows₁ operator
    have form := (Alike.list length items).mono grows₁
    apply (paired_log linked₁ (.operatorEvaluated _ v) (.operatorEvaluated _ w) rfl
      (.cons form (.cons operator .nil))).bind
    intro _ _ m₂ m₂' linked₂ grows₂ _
    have grows := Matching.le_trans grows₁ grows₂
    exact paired _ _ f g m₂ m₂' linked₂
      (.ofItems (.cons (operator.mono grows₂) (AlikeAll.mono each grows))) (grows.1 _ _ same)
  | proc identities body frames =>
    apply (paired_evaluateAll paired linked same each).bind
    intro vs ws m₁ m₁' linked₁ grows values
    exact Procedure.paired_apply paired linked₁ (grows.1 _ _ frames) _ _ (body.mono grows) values
  | _ => exact paired_throw linked _

theorem paired_step : PairedEvaluator r (step ev) (step ev') := by
  intro expr expr' f g m m' linked alike same
  cases alike with
  | symbol name =>
    simp only [step]
    split
    · exact paired_pure linked (.symbol _)
    · exact paired_resolve linked same name
  | list length each =>
    cases forall₂_of_zip length each with
    | nil => exact paired_pure linked .nil
    | cons head operands => exact paired_call paired linked same head operands
  | foreign thing length each =>
    cases forall₂_of_zip length each with
    | nil => exact paired_pure linked (.foreign thing rfl nofun)
    | cons head operands => exact paired_call paired linked same head operands
  | str text => exact paired_pure linked (.str text)
  | int n => exact paired_pure linked (.int n)
  | float x => exact paired_pure linked (.float x)
  | bool b => exact paired_pure linked (.bool b)
  | nil => exact paired_pure linked .nil
  | proc identities body frames => exact paired_pure linked (.proc identities body frames)

end Eval

namespace Eval

/-- Evaluation to the same depth keeps two runs side by side, whatever the renaming. -/
theorem paired_evaluateWithin (r : Renaming) (limit : Nat) :
    PairedEvaluator r (evaluateWithin limit) (evaluateWithin limit) := by
  induction limit with
  | zero => exact fun _ _ _ _ _ _ linked _ _ => paired_throw linked _
  | succ limit ih => exact paired_step ih

end Eval

end SmallLisp
