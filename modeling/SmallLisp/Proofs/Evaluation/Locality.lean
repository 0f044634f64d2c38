import SmallLisp.Proofs.Evaluation.Ends

/-! Which frames an evaluation can change: of those that are there when it begins, only the
one it runs in. A form that evaluates elsewhere does so in a frame it has just made, and a
frame that is made later is never one that was there before. -/
namespace SmallLisp

/-- No frame is lost, and a frame that may not change is the same, its outer frame and the
order of its bindings included. -/
structure Heap.Keeps (changed : FrameId → Prop) (h h' : Heap) : Prop where
  grows : h.next ≤ h'.next
  same : ∀ g < h.next, ¬ changed g → h'.frames[g]? = h.frames[g]?

namespace Heap

variable {changed : FrameId → Prop} {h h' : Heap}

theorem Keeps.refl (h : Heap) : Keeps changed h h := ⟨Nat.le_refl _, fun _ _ _ => rfl⟩

theorem Keeps.trans {h'' : Heap} (first : Keeps changed h h') (second : Keeps changed h' h'') :
    Keeps changed h h'' where
  grows := Nat.le_trans first.grows second.grows
  same g known kept :=
    (second.same g (Nat.lt_of_lt_of_le known first.grows) kept).trans (first.same g known kept)

theorem keeps_update {f : FrameId} (allowed : changed f) (change : Bindings → Bindings) :
    Keeps changed h (h.update f change) where
  grows := by simp
  same g _ kept := by
    have apart : f ≠ g := fun same => kept (by rw [← same]; exact allowed)
    exact frames_update_ne h apart change

/-- What happens in the newest frame changes none of the older ones. -/
theorem Keeps.inNewest {frame : Frame}
    (keeps : Keeps (fun g => changed g ∨ g = h.next) (h.push frame) h') : Keeps changed h h' where
  grows := by
    have := keeps.grows
    rw [next_push] at this
    exact Nat.le_of_succ_le this
  same g known kept := by
    have older : g ≠ h.next := Nat.ne_of_lt known
    rw [keeps.same g (by rw [next_push]; exact Nat.lt_succ_of_lt known) (by simp [kept, older]),
      frames_push, if_neg older]

end Heap

namespace Eval

variable {α β : Type} {changed : FrameId → Prop}

/-- The evaluation changes no other frames, whether it fails or not. -/
def Confined (changed : FrameId → Prop) (x : Eval α) : Prop :=
  ∀ m, Ends x m (fun _ m' => m.heap.Keeps changed m'.heap) (fun _ m' => m.heap.Keeps changed m'.heap)

/-- Each expression changes its own frame at most. -/
def Local (ev : Evaluator) : Prop := ∀ expr f, Confined (· = f) (ev expr f)

@[simp] theorem confined_pure (a : α) : Confined changed (pure a : Eval α) := fun _ => .refl _

@[simp] theorem confined_throw (e : EvalError) : Confined changed (throw e : Eval α) :=
  fun _ => .refl _

@[simp] theorem confined_ofExcept (r : Except EvalError α) :
    Confined changed (ofExcept r : Eval α) :=
  fun _ => ends_ofExcept (fun _ _ => .refl _) (fun _ _ => .refl _)

theorem Confined.bind {x : Eval α} {next : α → Eval β} (first : Confined changed x)
    (rest : ∀ a, Confined changed (next a)) : Confined changed (x >>= next) := by
  intro m
  apply (first m).bind
  intro a m' keeps
  exact (rest a m').mono (fun _ _ => keeps.trans) (fun _ _ => keeps.trans)

theorem Confined.mono {wider : FrameId → Prop} {x : Eval α} (confined : Confined changed x)
    (within : ∀ g, changed g → wider g) : Confined wider x := by
  intro m
  have weaken {h : Heap} (keeps : m.heap.Keeps changed h) : m.heap.Keeps wider h :=
    ⟨keeps.grows, fun g known kept => keeps.same g known (fun ch => kept (within g ch))⟩
  exact (confined m).mono (fun _ _ => weaken) (fun _ _ => weaken)

theorem confined_modify {change : Machine → Machine}
    (keeps : ∀ m : Machine, m.heap.Keeps changed (change m).heap) : Confined changed (modify change) :=
  fun m => keeps m

theorem confined_define {f : FrameId} (allowed : changed f) (name : String) (v : Value) :
    Confined changed (define f name v) :=
  confined_modify fun _ => Heap.keeps_update allowed _

theorem confined_undefine {f : FrameId} (allowed : changed f) (name : String) :
    Confined changed (undefine f name) :=
  confined_modify fun _ => Heap.keeps_update allowed _

@[simp] theorem confined_print (text : String) : Confined changed (print text) :=
  confined_modify fun _ => .refl _

@[simp] theorem confined_log (e : Event) : Confined changed (log e) :=
  fun _ => ends_log (.refl _) (.refl _)

@[simp] theorem confined_choose (n : Nat) : Confined changed (choose n) := fun _ => .refl _

@[simp] theorem confined_newProcedure (params : List String) (body : Value) (f : FrameId) :
    Confined changed (newProcedure params body f) := fun _ => .refl _

@[simp] theorem confined_lookup (f : FrameId) (name : String) :
    Confined changed (lookup f name) := fun _ => .refl _

@[simp] theorem confined_names (f : FrameId) : Confined changed (names f) := fun _ => .refl _

/-- The new frame may be changed freely by what follows. -/
theorem confined_newFrame_bind {bindings : Bindings} {outer : FrameId} {next : FrameId → Eval β}
    (rest : ∀ i, Confined (fun g => changed g ∨ g = i) (next i)) :
    Confined changed (newFrame bindings outer >>= next) := by
  intro m
  exact (rest m.heap.next _).mono (fun _ _ => Heap.Keeps.inNewest) (fun _ _ => Heap.Keeps.inNewest)

theorem confined_resolve (name : String) (f : FrameId) : Confined changed (resolve name f) := by
  simp only [resolve]
  split
  · exact confined_pure _
  · exact confined_lookup f name

variable {ev : Evaluator} (isLocal : Local ev)

include isLocal

theorem confined_evaluateAll (f : FrameId) (exprs : List Value) :
    Confined (· = f) (evaluateAll ev f exprs) := by
  induction exprs with
  | nil => exact confined_pure _
  | cons expr rest ih =>
    apply (isLocal expr f).bind
    intro v
    exact ih.bind fun vs => confined_pure _

end Eval

namespace Procedure

open Eval

theorem confined_make (params body : Value) (f : FrameId) {changed : FrameId → Prop} :
    Confined changed (make params body f) := by
  simp only [make]
  split
  · apply (confined_ofExcept _).bind
    intro names
    split
    · exact confined_newProcedure names body f
    · exact confined_throw _
  · exact confined_throw _

/-- The body runs in a new frame, so a call changes no frame that is there before it. -/
theorem confined_apply {ev : Evaluator} (isLocal : Local ev) (name : String)
    (params : List String) (body : Value) (captured : FrameId) (args : List Value) :
    Confined (fun _ => False) (apply ev name params body captured args) := by
  simp only [apply, extend]
  apply (confined_log _).bind
  intro _
  rw [bind_assoc]
  apply (confined_ofExcept _).bind
  intro bindings
  apply confined_newFrame_bind
  intro i
  exact (isLocal body i).mono fun g same => .inr same

end Procedure

namespace Primitive

open Eval

theorem confined_run (p : Primitive) (args : List Value) {changed : FrameId → Prop} :
    Confined changed (p.run args) := by
  have picks (values : List Value) : Confined changed (pick values) := by
    cases values with
    | nil => exact confined_pure _
    | cons first rest => exact (confined_choose _).bind fun i => confined_pure _
  simp only [run]
  split
  · apply (confined_ofExcept _).bind
    intro text
    exact (confined_print _).bind fun _ => confined_pure _
  · exact (confined_ofExcept _).bind picks
  · exact picks _
  · exact confined_ofExcept _

end Primitive

namespace Form

open Eval

variable {ev : Evaluator} (isLocal : Local ev)

include isLocal

theorem confined_runDefine (f : FrameId) (target body : Value) :
    Confined (· = f) (runDefine ev f target body) := by
  have defines (name : String) {x : Eval Value} (confined : Confined (· = f) x) :
      Confined (· = f) (do Eval.define f name (← x); return success) := by
    apply confined.bind
    intro v
    apply Confined.bind
    · apply confined_define
      rfl
    · exact fun _ => confined_pure _
  simp only [runDefine]
  split
  · exact defines _ (isLocal body f)
  · exact confined_throw _
  · exact defines _ (Procedure.confined_make _ body f)
  · exact confined_throw _
  · exact confined_throw _

theorem confined_bindEach (outside inside : FrameId) (bindings : List Value) :
    Confined (fun g => g = outside ∨ g = inside) (bindEach ev outside inside bindings) := by
  induction bindings with
  | nil => exact confined_pure _
  | cons binding rest ih =>
    unfold bindEach
    split
    · exact confined_pure _
    · next tail same =>
      cases same
      apply ((isLocal _ outside).mono fun g same => .inl same).bind
      intro v
      exact (confined_define (.inr rfl) _ v).bind fun _ => ih
    all_goals exact confined_throw _

theorem confined_runLet (f : FrameId) (bindings body : Value) :
    Confined (· = f) (runLet ev f bindings body) := by
  simp only [runLet]
  split
  · apply confined_newFrame_bind
    intro inside
    apply (confined_bindEach isLocal f inside _).bind
    intro _
    exact (isLocal body inside).mono fun g same => .inr same
  · exact confined_throw _

theorem confined_runCond (f : FrameId) (branches : List Value) :
    Confined (· = f) (runCond ev f branches) := by
  induction branches with
  | nil => exact confined_throw _
  | cons branch rest ih =>
    unfold runCond
    split
    · exact confined_throw _
    · next same =>
      cases same
      apply (isLocal _ f).bind
      intro v
      split
      · exact isLocal _ f
      · exact ih
    all_goals exact confined_throw _

theorem confined_sequence (f : FrameId) (last : Value) (exprs : List Value) :
    Confined (· = f) (sequence ev f last exprs) := by
  induction exprs generalizing last with
  | nil => exact confined_pure last
  | cons expr rest ih => exact (isLocal expr f).bind ih

theorem confined_run (f : FrameId) (form : Form) (operands : List Value) :
    Confined (· = f) (run ev f form operands) := by
  simp only [run]
  split
  · exact confined_runDefine isLocal f _ _
  · simp only [runUndef]
    split
    · apply Confined.bind
      · apply confined_undefine
        rfl
      · exact fun _ => confined_pure _
    · exact confined_throw _
  · exact confined_runLet isLocal f _ _
  · exact Procedure.confined_make _ _ f
  · apply (isLocal _ f).bind
    intro v
    split <;> exact isLocal _ f
  · exact confined_runCond isLocal f _
  · apply (isLocal _ f).bind
    intro v
    exact (confined_ofExcept _).bind fun _ => confined_pure _
  · exact confined_pure _
  · exact (isLocal _ f).bind fun expr => isLocal expr f
  · exact (confined_names f).bind fun _ => confined_pure _
  · exact confined_sequence isLocal f _ _
  · exact confined_throw _

end Form

namespace Eval

theorem confined_apply_evaluateAll {ev : Evaluator} (isLocal : Local ev) (f : FrameId)
    (name : String) (params : List String) (body : Value) (captured : FrameId)
    (operands : List Value) :
    Confined (· = f)
      (do Procedure.apply ev name params body captured (← evaluateAll ev f operands)) := by
  apply (confined_evaluateAll isLocal f operands).bind
  intro args
  exact (Procedure.confined_apply isLocal name params body captured args).mono fun _ => False.elim

theorem confined_callName {ev : Evaluator} (isLocal : Local ev) (f : FrameId) (name : String)
    (operands : List Value) : Confined (· = f) (callName ev f name operands) := by
  simp only [callName]
  split
  · next b _ =>
    apply (confined_ofExcept _).bind
    intro _
    cases b with
    | form s => exact Form.confined_run isLocal f s operands
    | primitive p =>
      exact (confined_evaluateAll isLocal f operands).bind fun args => p.confined_run args
  · apply (confined_resolve name f).bind
    intro v
    split
    · exact confined_apply_evaluateAll isLocal f _ _ _ _ _
    · exact confined_throw _

theorem confined_call {ev : Evaluator} (isLocal : Local ev) (f : FrameId) (head : Value)
    (operands : List Value) : Confined (· = f) (call ev f head operands) := by
  simp only [call]
  split
  · exact confined_callName isLocal f _ operands
  · apply (isLocal _ f).bind
    intro operator
    exact (confined_log _).bind fun _ => isLocal _ f
  · exact confined_apply_evaluateAll isLocal f _ _ _ _ _
  · exact confined_throw _

theorem local_step {ev : Evaluator} (isLocal : Local ev) : Local (step ev) := by
  intro expr f
  simp only [step]
  split
  · split
    · exact confined_pure _
    · exact confined_resolve _ f
  · exact confined_pure _
  · exact confined_call isLocal f _ _
  · exact confined_call isLocal f _ _
  · exact confined_pure _

theorem local_evaluateWithin (limit : Nat) : Local (evaluateWithin limit) := by
  induction limit with
  | zero => exact fun _ _ => confined_throw _
  | succ limit ih => exact local_step ih

/-- However an evaluation ends, each frame that was there before it has its bindings, their
order and its outer frame still, the frame of the evaluation apart. A call of a procedure
spares all of them, the captured frame and its outer frames included. -/
theorem evaluateWithin_spares_other_frames (limit : Nat) (m : Machine) :
    (∀ expr f g, g < m.heap.next → g ≠ f →
      (after (evaluateWithin limit expr f) m).heap.frames[g]? = m.heap.frames[g]?) ∧
    ∀ name params body captured args g, g < m.heap.next →
      (after (Procedure.apply (evaluateWithin limit) name params body captured args) m).heap.frames[g]?
        = m.heap.frames[g]? := by
  refine ⟨fun expr f g known other => ?_, fun name params body captured args g known => ?_⟩
  · have keeps := ends_iff_after.mp (local_evaluateWithin limit expr f m)
    exact keeps.same g known other
  · have called := Procedure.confined_apply (local_evaluateWithin limit)
    have keeps := ends_iff_after.mp (called name params body captured args m)
    exact keeps.same g known not_false

/-- `(let ((x 2)) (begin (define y x) (car y)))` in the inner of two frames, and a call of a
procedure with the same body that captured the outer one. Both fail after their definition,
which is in a frame of its own. -/
theorem evaluateWithin_spares_other_frames_failing :
    let m : Machine :=
      { Machine.initial with heap := ⟨#[⟨[("x", .int 1)], none⟩, ⟨[("z", .nil)], some 0⟩]⟩ }
    let body : Value := .list [.symbol "begin",
      .list [.symbol "define", .symbol "y", .symbol "x"], .list [.symbol "car", .symbol "y"]]
    let expr : Value := .list [.symbol "let", .list [.list [.symbol "x", .int 2]], body]
    let run := evaluateWithin 9 expr 1
    let call := Procedure.apply (evaluateWithin 9) "f" ["x"] body 0 [.int 2]
    0 < m.heap.next ∧ 0 ≠ 1 ∧
    (after run m).heap.frames[0]? = m.heap.frames[0]? ∧
    (after call m).heap.frames[0]? = m.heap.frames[0]? ∧
    (after run m).heap.names 2 = ["x", "y"] ∧ (after call m).heap.names 2 = ["x", "y"] := by
  intro m body expr run call
  have known : 0 < m.heap.next := by decide
  have spares := evaluateWithin_spares_other_frames 9 m
  exact ⟨known, by omega, spares.1 expr 1 0 known (by decide),
    spares.2 "f" ["x"] body 0 [.int 2] 0 known, by decide +kernel, by decide +kernel⟩

end Eval

end SmallLisp
