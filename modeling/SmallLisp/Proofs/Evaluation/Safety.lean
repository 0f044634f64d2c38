import SmallLisp.Proofs.Evaluation.Builtins
import SmallLisp.Proofs.Evaluation.Ends

/-! Evaluation of sound expressions on sound heaps. It ends in a sound value or in a failure
of the language's own, and leaves the heap sound either way: no frame is lost, and none gets
another outer frame. -/
namespace SmallLisp

/-- A machine that a run may lead to: its heap is sound, and the frames of the first one are
still there. -/
structure Machine.Extends (name : String → Prop) (m m' : Machine) : Prop where
  sound : m'.heap.Sound name
  grows : m.heap.next ≤ m'.heap.next
  outer : ∀ g < m.heap.next, m'.heap.outer? g = m.heap.outer? g

namespace Machine.Extends

variable {name : String → Prop} {m m' m'' : Machine}

theorem refl (sound : m.heap.Sound name) : m.Extends name m :=
  ⟨sound, Nat.le_refl _, fun _ _ => rfl⟩

/-- A step that does not touch the frames. -/
theorem of_heap_eq (sound : m.heap.Sound name) (same : m'.heap = m.heap) : m.Extends name m' := by
  refine ⟨?_, ?_, ?_⟩
  · rw [same]; exact sound
  · rw [same]
  · intro g _
    rw [same]

theorem trans (first : m.Extends name m') (second : m'.Extends name m'') : m.Extends name m'' where
  sound := second.sound
  grows := Nat.le_trans first.grows second.grows
  outer g known :=
    (second.outer g (Nat.lt_of_lt_of_le known first.grows)).trans (first.outer g known)

theorem known (extends' : m.Extends name m') {f : FrameId} (known : f < m.heap.next) :
    f < m'.heap.next := Nat.lt_of_lt_of_le known extends'.grows

theorem value (extends' : m.Extends name m') {v : Value} (sound : v.Sound name m.heap.next) :
    v.Sound name m'.heap.next := sound.mono extends'.grows

theorem values (extends' : m.Extends name m') {vs : List Value}
    (sound : ∀ v ∈ vs, v.Sound name m.heap.next) : ∀ v ∈ vs, v.Sound name m'.heap.next :=
  fun v member => (sound v member).mono extends'.grows

end Machine.Extends

namespace Eval

variable {α β : Type} {name : String → Prop} {m : Machine}

/-- The evaluation has a result as described, which may refer to the frames there are then,
or fails as a program of the language can. -/
def Safe (name : String → Prop) (x : Eval α) (m : Machine) (done : α → Nat → Prop) : Prop :=
  Ends x m (fun a m' => m.Extends name m' ∧ done a m'.heap.next)
    (fun e m' => m.Extends name m' ∧ (e.IsRunError ∨ e = .tooDeep))

/-- A sound result. -/
abbrev SafeValue (name : String → Prop) (x : Eval Value) (m : Machine) : Prop :=
  Safe name x m fun v frames => v.Sound name frames

/-- Safe in every frame of every sound heap, on every sound expression. -/
def SafeEvaluator (name : String → Prop) (ev : Evaluator) : Prop :=
  ∀ expr f m, m.heap.Sound name → expr.Sound name m.heap.next → f < m.heap.next →
    SafeValue name (ev expr f) m

variable {x : Eval α} {done : α → Nat → Prop}

theorem safe_pure (sound : m.heap.Sound name) {a : α} (h : done a m.heap.next) :
    Safe name (pure a) m done := ⟨.refl sound, h⟩

theorem safe_throw (sound : m.heap.Sound name) {e : EvalError} (expected : e.IsRunError) :
    Safe name (throw e : Eval α) m done := ⟨.refl sound, .inl expected⟩

theorem safe_ofExcept_of (sound : m.heap.Sound name) {r : Except EvalError α}
    (yields : Yields r fun a => done a m.heap.next) : Safe name (ofExcept r) m done := by
  apply ends_ofExcept
  · rintro a rfl
    exact ⟨.refl sound, yields⟩
  · rintro e rfl
    exact ⟨.refl sound, yields⟩

theorem safe_ofExcept (sound : m.heap.Sound name) {r : Except EvalError α} {holds : α → Prop}
    (yields : Yields r holds) : Safe name (ofExcept r) m fun a _ => holds a :=
  safe_ofExcept_of sound yields

theorem safeValue_ofExcept (sound : m.heap.Sound name) {r : Except EvalError Value}
    (yields : Yields r (Value.Sound name m.heap.next)) : SafeValue name (ofExcept r) m :=
  safe_ofExcept_of sound yields

theorem Safe.bind {next : α → Eval β} {done' : β → Nat → Prop} (safe : Safe name x m done)
    (rest : ∀ a m', m.Extends name m' → done a m'.heap.next → Safe name (next a) m' done') :
    Safe name (x >>= next) m done' := by
  apply Ends.bind safe
  rintro a m' ⟨first, result⟩
  apply (rest a m' first result).mono
  · exact fun _ _ ⟨second, result⟩ => ⟨first.trans second, result⟩
  · exact fun _ _ ⟨second, expected⟩ => ⟨first.trans second, expected⟩

theorem safe_print (sound : m.heap.Sound name) (text : String) :
    Safe name (print text) m fun _ _ => True := ⟨.of_heap_eq sound rfl, trivial⟩

theorem safe_log (sound : m.heap.Sound name) (e : Event) :
    Safe name (log e) m fun _ _ => True :=
  ends_log ⟨.of_heap_eq sound rfl, trivial⟩ ⟨.refl sound, .inr rfl⟩

theorem safe_define (sound : m.heap.Sound name) {f : FrameId} {n : String} {v : Value}
    (named : name n) (value : v.Sound name m.heap.next) :
    Safe name (define f n v) m fun _ _ => True := by
  refine ⟨⟨sound.define f named value, ?_, ?_⟩, trivial⟩
  · exact Nat.le_of_eq (Heap.next_update ..).symm
  · exact fun g _ => Heap.outer?_update ..

theorem safe_undefine (sound : m.heap.Sound name) (f : FrameId) (n : String) :
    Safe name (undefine f n) m fun _ _ => True := by
  refine ⟨⟨sound.undefine f n, ?_, ?_⟩, trivial⟩
  · exact Nat.le_of_eq (Heap.next_update ..).symm
  · exact fun g _ => Heap.outer?_update ..

theorem safe_newFrame (sound : m.heap.Sound name) {b : Bindings}
    (bindings : b.Sound name m.heap.next) {outer : FrameId} (known : outer < m.heap.next) :
    Safe name (newFrame b outer) m fun i frames => i < frames := by
  refine ⟨⟨sound.push bindings known, ?_, ?_⟩, ?_⟩
  · exact Nat.le_of_lt (by rw [Heap.next_push]; exact Nat.lt_succ_self _)
  · intro g older
    rw [Heap.outer?, Heap.frames_push, if_neg (Nat.ne_of_lt older)]
    rfl
  · rw [Heap.next_push]
    exact Nat.lt_succ_self _

theorem safe_newProcedure (sound : m.heap.Sound name) {params : List String} {body : Value}
    {f : FrameId} (named : ∀ p ∈ params, name p) (binds : Procedure.BindsWell params)
    (value : body.Sound name m.heap.next) (known : f < m.heap.next) :
    SafeValue name (newProcedure params body f) m :=
  ⟨.of_heap_eq sound rfl, .proc named binds value known⟩

theorem safe_lookup (sound : m.heap.Sound name) (f : FrameId) (n : String) :
    SafeValue name (lookup f n) m := ⟨.refl sound, sound.get f n⟩

theorem safe_names (sound : m.heap.Sound name) (f : FrameId) :
    Safe name (names f) m fun ns _ => ∀ n ∈ ns, name n := by
  refine ⟨.refl sound, fun n member => ?_⟩
  obtain ⟨d, bound, rfl⟩ := List.mem_map.mp member
  exact (sound.bindings f).keys d bound

theorem safe_choose (sound : m.heap.Sound name) (n : Nat) :
    Safe name (choose n) m fun _ _ => True := ⟨.of_heap_eq sound rfl, trivial⟩

theorem sound_constants (frames : Nat) : ∀ d ∈ constants, d.2.Sound name frames := by
  simp only [constants, List.forall_mem_cons]
  exact ⟨.nil, .bool _, .float _, .float _, .float _, .float _, .float _, .float _, .float _,
    by simp⟩

theorem safe_resolve (sound : m.heap.Sound name) (n : String) (f : FrameId) :
    SafeValue name (resolve n f) m := by
  simp only [resolve]
  split
  · next v found =>
    apply safe_pure sound
    obtain ⟨before, rest, same, _⟩ := List.lookup_eq_some_iff.mp found
    exact sound_constants _ (n, v) (by simp [same])
  · exact safe_lookup sound f n

theorem safe_evaluateAll {ev : Evaluator} (safe : SafeEvaluator name ev)
    (sound : m.heap.Sound name) {f : FrameId} (known : f < m.heap.next) {exprs : List Value}
    (each : ∀ v ∈ exprs, v.Sound name m.heap.next) :
    Safe name (evaluateAll ev f exprs) m fun vs frames =>
      (∀ v ∈ vs, v.Sound name frames) ∧ vs.length = exprs.length := by
  induction exprs generalizing m with
  | nil => exact safe_pure sound ⟨by simp, rfl⟩
  | cons expr rest ih =>
    apply (safe expr f m sound (each expr (by simp)) known).bind
    intro v m₁ first value
    have later := first.values fun w (member : w ∈ rest) => each w (by simp [member])
    apply (ih first.sound (first.known known) later).bind
    rintro vs m₂ second ⟨values, length⟩
    exact safe_pure second.sound ⟨by simpa [second.value value] using values, by simp [length]⟩

end Eval

namespace Procedure

open Eval

variable {name : String → Prop} {m : Machine}

theorem safe_make (sound : m.heap.Sound name) {params body : Value} {f : FrameId}
    (listed : params.Sound name m.heap.next) (value : body.Sound name m.heap.next)
    (known : f < m.heap.next) : SafeValue name (make params body f) m := by
  simp only [make]
  split
  · apply (safe_ofExcept sound (yields_paramNames listed.items)).bind
    intro names m' extends' named
    split
    · next placed =>
      have binds := (wellPlaced_iff names).mp placed
      exact safe_newProcedure extends'.sound named binds (extends'.value value)
        (extends'.known known)
    · exact safe_throw extends'.sound trivial
  · exact safe_throw sound (EvalError.isRunError_mistyped _ _ listed)

theorem safe_apply {ev : Evaluator} (safe : SafeEvaluator name ev) (sound : m.heap.Sound name)
    (called : String) {id : Nat} {params : List String} {body : Value} {captured : FrameId}
    (procedure : (Value.proc id params body captured).Sound name m.heap.next)
    {args : List Value} (each : ∀ v ∈ args, v.Sound name m.heap.next) :
    SafeValue name (apply ev called params body captured args) m := by
  cases procedure with
  | proc named binds value known =>
    simp only [apply, extend]
    apply (safe_log sound _).bind
    intro _ m₁ first _
    rw [bind_assoc]
    have bound := yields_bind called named binds (first.values each)
    apply (safe_ofExcept first.sound bound).bind
    intro bindings m₂ second fits
    apply (safe_newFrame second.sound (fits.mono second.grows) (second.known (first.known known))).bind
    intro i m₃ third inside
    exact safe body i m₃ third.sound (third.value (second.value (first.value value))) inside

end Procedure

namespace Primitive

open Eval

variable {name : String → Prop} {m : Machine}

theorem safe_pick (sound : m.heap.Sound name) {values : List Value}
    (each : ∀ v ∈ values, v.Sound name m.heap.next) : SafeValue name (pick values) m := by
  cases values with
  | nil => exact safe_pure sound .nil
  | cons first rest =>
    apply (safe_choose sound _).bind
    intro i m' extends' _
    apply safe_pure extends'.sound
    have picked : (first :: rest).getD i first ∈ first :: rest := by
      rw [List.getD_eq_getElem?_getD]
      cases found : (first :: rest)[i]? with
      | none => simp
      | some v => simpa using List.mem_of_getElem? found
    exact extends'.value (each _ picked)

theorem safe_run (sound : m.heap.Sound name) {p : Primitive} {args : List Value}
    (admits : p.arity.Admits args.length) (each : ∀ v ∈ args, v.Sound name m.heap.next) :
    SafeValue name (p.run args) m := by
  simp only [run]
  split
  · apply (safe_ofExcept sound (yields_displays " " each)).bind
    intro text m₁ first _
    apply (safe_print first.sound _).bind
    intro _ m₂ second _
    exact safe_pure second.sound .nil
  · next v =>
    apply (safe_ofExcept sound (yields_items .rand (each v (by simp)))).bind
    intro items m' extends' values
    exact safe_pick extends'.sound (extends'.values values)
  · exact safe_pick sound each
  · next notPrint notRand _ =>
    have pure' : p ≠ .print ∧ p ≠ .rand := ⟨notPrint, notRand⟩
    exact safeValue_ofExcept sound (yields_result pure' admits each)

end Primitive

namespace Form

open Eval

variable {name : String → Prop} {m : Machine} {ev : Evaluator} (safe : SafeEvaluator name ev)
  {f : FrameId}

theorem safe_success {x : Eval Unit} (changes : Safe name x m fun _ _ => True) :
    SafeValue name (do x; return success) m :=
  changes.bind fun _ _ extends' _ => safe_pure extends'.sound (.str _)

theorem safe_runUndef (sound : m.heap.Sound name) {target : Value}
    (value : target.Sound name m.heap.next) : SafeValue name (runUndef f target) m := by
  simp only [runUndef]
  split
  · exact safe_success (safe_undefine sound f _)
  · exact safe_throw sound (EvalError.isRunError_mistyped _ _ value)

include safe

theorem safe_runDefine (sound : m.heap.Sound name) (known : f < m.heap.next)
    {target body : Value} (shape : target.Sound name m.heap.next)
    (value : body.Sound name m.heap.next) : SafeValue name (runDefine ev f target body) m := by
  have defines {n : String} (named : name n) {x : Eval Value} (computed : SafeValue name x m) :
      SafeValue name (do Eval.define f n (← x); return success) m := by
    apply computed.bind
    intro v m' extends' result
    exact safe_success (safe_define extends'.sound named result)
  simp only [runDefine]
  split
  · exact defines shape.symbol_name (safe body f m sound value known)
  · exact safe_throw sound trivial
  · next n params =>
    have head : (Value.symbol n).Sound name m.heap.next := shape.items _ (by simp)
    have tail : (Value.list params).Sound name m.heap.next :=
      .list fun v member => shape.items v (by simp [member])
    exact defines head.symbol_name (Procedure.safe_make sound tail value known)
  · next v _ _ =>
    exact safe_throw sound (EvalError.isRunError_mistyped _ _ (shape.items v (by simp)))
  · exact safe_throw sound trivial

theorem safe_bindEach (sound : m.heap.Sound name) {outside inside : FrameId}
    (knownOutside : outside < m.heap.next) (knownInside : inside < m.heap.next)
    {bindings : List Value} (each : ∀ v ∈ bindings, v.Sound name m.heap.next) :
    Safe name (bindEach ev outside inside bindings) m fun _ _ => True := by
  induction bindings generalizing m with
  | nil => exact safe_pure sound trivial
  | cons binding rest ih =>
    have shape := each binding (by simp)
    unfold bindEach
    split
    · exact safe_pure sound trivial
    · next n expr _ same =>
      cases same
      have label : (Value.symbol n).Sound name m.heap.next := shape.items _ (by simp)
      apply (safe expr outside m sound (shape.items _ (by simp)) knownOutside).bind
      intro v m₁ first value
      apply (safe_define first.sound label.symbol_name value).bind
      intro _ m₂ second _
      have both := first.trans second
      exact ih both.sound (both.known knownOutside) (both.known knownInside)
        (both.values fun w member => each w (by simp [member]))
    · next v _ _ _ same =>
      cases same
      exact safe_throw sound (EvalError.isRunError_mistyped _ _ (shape.items v (by simp)))
    · exact safe_throw sound trivial
    · next same =>
      cases same
      exact safe_throw sound (EvalError.isRunError_mistyped _ _ shape)

theorem safe_runLet (sound : m.heap.Sound name) (known : f < m.heap.next)
    {bindings body : Value} (shape : bindings.Sound name m.heap.next)
    (value : body.Sound name m.heap.next) : SafeValue name (runLet ev f bindings body) m := by
  simp only [runLet]
  split
  · apply (safe_newFrame sound Bindings.sound_nil known).bind
    intro inside m₁ first fresh
    apply (safe_bindEach safe first.sound (first.known known) fresh (first.values shape.items)).bind
    intro _ m₂ second _
    exact safe body inside m₂ second.sound (second.value (first.value value)) (second.known fresh)
  · exact safe_throw sound (EvalError.isRunError_mistyped _ _ shape)

theorem safe_runIf (sound : m.heap.Sound name) (known : f < m.heap.next) {test yes no : Value}
    (first : test.Sound name m.heap.next) (second : yes.Sound name m.heap.next)
    (third : no.Sound name m.heap.next) : SafeValue name (runIf ev f test yes no) m := by
  simp only [runIf]
  apply (safe test f m sound first known).bind
  intro v m' extends' _
  split
  · exact safe yes f m' extends'.sound (extends'.value second) (extends'.known known)
  · exact safe no f m' extends'.sound (extends'.value third) (extends'.known known)

theorem safe_runCond (sound : m.heap.Sound name) (known : f < m.heap.next)
    {branches : List Value} (each : ∀ v ∈ branches, v.Sound name m.heap.next) :
    SafeValue name (runCond ev f branches) m := by
  induction branches generalizing m with
  | nil => exact safe_throw sound trivial
  | cons branch rest ih =>
    have shape := each branch (by simp)
    unfold runCond
    split
    · exact safe_throw sound trivial
    · next test consequent _ same =>
      cases same
      apply (safe test f m sound (shape.items _ (by simp)) known).bind
      intro v m' extends' _
      split
      · exact safe consequent f m' extends'.sound (extends'.value (shape.items _ (by simp)))
          (extends'.known known)
      · exact ih extends'.sound (extends'.known known)
          (extends'.values fun w member => each w (by simp [member]))
    · exact safe_throw sound trivial
    · next same =>
      cases same
      exact safe_throw sound (EvalError.isRunError_mistyped _ _ shape)

theorem safe_sequence (sound : m.heap.Sound name) (known : f < m.heap.next) {last : Value}
    (value : last.Sound name m.heap.next) {exprs : List Value}
    (each : ∀ v ∈ exprs, v.Sound name m.heap.next) :
    SafeValue name (sequence ev f last exprs) m := by
  induction exprs generalizing m last with
  | nil => exact safe_pure sound value
  | cons expr rest ih =>
    apply (safe expr f m sound (each expr (by simp)) known).bind
    intro v m' extends' result
    exact ih extends'.sound (extends'.known known) result
      (extends'.values fun w member => each w (by simp [member]))

theorem safe_run (sound : m.heap.Sound name) (known : f < m.heap.next) {form : Form}
    {operands : List Value} (admits : form.arity.Admits operands.length)
    (each : ∀ v ∈ operands, v.Sound name m.heap.next) :
    SafeValue name (run ev f form operands) m := by
  have one (exact : operands.length = 1) :
      ∃ a, operands = [a] ∧ a.Sound name m.heap.next := by
    obtain ⟨a, rfl⟩ := List.length_eq_one_iff.mp exact
    exact ⟨a, rfl, each a (by simp)⟩
  have two (exact : operands.length = 2) :
      ∃ a b, operands = [a, b] ∧ a.Sound name m.heap.next ∧ b.Sound name m.heap.next := by
    obtain ⟨a, b, rfl⟩ := List.length_eq_two.mp exact
    exact ⟨a, b, rfl, each a (by simp), each b (by simp)⟩
  cases form with
  | define =>
    obtain ⟨target, body, rfl, shape, value⟩ := two admits
    exact safe_runDefine safe sound known shape value
  | undef =>
    obtain ⟨target, rfl, shape⟩ := one admits
    exact safe_runUndef sound shape
  | letIn =>
    obtain ⟨bindings, body, rfl, shape, value⟩ := two admits
    exact safe_runLet safe sound known shape value
  | lambda =>
    obtain ⟨params, body, rfl, shape, value⟩ := two admits
    exact Procedure.safe_make sound shape value known
  | ifElse =>
    obtain ⟨test, yes, no, rfl⟩ := List.length_eq_three.mp admits
    exact safe_runIf safe sound known (each test (by simp)) (each yes (by simp)) (each no (by simp))
  | cond => exact safe_runCond safe sound known each
  | type =>
    obtain ⟨expr, rfl, shape⟩ := one admits
    apply (safe expr f m sound shape known).bind
    intro v m' extends' value
    rw [value.typeName?_eq]
    exact safe_pure extends'.sound (.str _)
  | quote =>
    obtain ⟨expr, rfl, shape⟩ := one admits
    exact safe_pure sound shape
  | eval =>
    obtain ⟨expr, rfl, shape⟩ := one admits
    apply (safe expr f m sound shape known).bind
    intro v m' extends' value
    exact safe v f m' extends'.sound value (extends'.known known)
  | env =>
    obtain rfl := List.length_eq_zero_iff.mp admits
    apply (safe_names sound f).bind
    intro ns m' extends' named
    apply safe_pure extends'.sound
    apply Value.Sound.list
    intro v member
    obtain ⟨n, bound, rfl⟩ := List.mem_map.mp member
    exact .symbol (named n bound)
  | begin => exact safe_sequence safe sound known .nil each

end Form

namespace Eval

variable {name : String → Prop} {m : Machine} {ev : Evaluator} (safe : SafeEvaluator name ev)
  {f : FrameId}

include safe

theorem safe_callName (sound : m.heap.Sound name) (known : f < m.heap.next) (called : String)
    {operands : List Value} (each : ∀ v ∈ operands, v.Sound name m.heap.next) :
    SafeValue name (callName ev f called operands) m := by
  simp only [callName]
  split
  · next b _ =>
    apply (safe_ofExcept sound (b.arity.yields_check b.name operands.length)).bind
    intro _ m₁ first admits
    cases b with
    | form s => exact Form.safe_run safe first.sound (first.known known) admits (first.values each)
    | primitive p =>
      apply (safe_evaluateAll safe first.sound (first.known known) (first.values each)).bind
      rintro args m₂ second ⟨values, length⟩
      exact Primitive.safe_run second.sound (by rw [length]; exact admits) values
  · apply (safe_resolve sound called f).bind
    intro v m₁ first value
    split
    · apply (safe_evaluateAll safe first.sound (first.known known) (first.values each)).bind
      rintro args m₂ second ⟨values, _⟩
      exact Procedure.safe_apply safe second.sound called (second.value value) values
    · exact safe_throw first.sound (EvalError.isRunError_notCallable _ value)

theorem safe_call (sound : m.heap.Sound name) (known : f < m.heap.next) {head : Value}
    (shape : head.Sound name m.heap.next) {operands : List Value}
    (each : ∀ v ∈ operands, v.Sound name m.heap.next) :
    SafeValue name (call ev f head operands) m := by
  simp only [call]
  split
  · exact safe_callName safe sound known _ each
  · apply (safe _ f m sound shape known).bind
    intro operator m₁ first value
    apply (safe_log first.sound _).bind
    intro _ m₂ second _
    have both := first.trans second
    apply safe _ f m₂ both.sound _ (both.known known)
    exact .list (by simpa [second.value value] using both.values each)
  · apply (safe_evaluateAll safe sound known each).bind
    rintro args m₁ first ⟨values, _⟩
    exact Procedure.safe_apply safe first.sound _ (first.value shape) values
  · exact safe_throw sound (EvalError.isRunError_notCallable _ shape)

end Eval

namespace Eval

variable {name : String → Prop} {ev : Evaluator}

/-- What a quoted name quotes must be a name too. -/
theorem safe_step (unquotes : ∀ s q, name s → quotedName? s = some q → name q)
    (safe : SafeEvaluator name ev) : SafeEvaluator name (step ev) := by
  intro expr f m sound shape known
  simp only [step]
  split
  · split
    · next quoted => exact safe_pure sound (.symbol (unquotes _ _ shape.symbol_name quoted))
    · exact safe_resolve sound _ f
  · exact safe_pure sound .nil
  · exact safe_call safe sound known (shape.items _ (by simp))
      fun v member => shape.items v (by simp [member])
  · exact absurd shape Value.not_sound_foreign
  · exact safe_pure sound shape

theorem safe_evaluateWithin (unquotes : ∀ s q, name s → quotedName? s = some q → name q)
    (limit : Nat) : SafeEvaluator name (evaluateWithin limit) := by
  induction limit with
  | zero => exact fun _ _ m sound _ _ => ⟨.refl sound, .inr rfl⟩
  | succ limit ih => exact safe_step unquotes ih

/-- Evaluation has no faults of its own. On a sound heap, in one of its frames, a sound
expression ends in a sound value, in an error of the language or too deep: operands are never
taken apart in a number that they do not have, the machine's arithmetic is never used where it
is undefined, and nothing foreign is asked for its type or text. Wherever an integer is
widened, to compute or to compare, it has a finite neighbour. -/
theorem evaluateWithin_has_no_fault (limit : Nat) {m : Machine} {expr : Value} {f : FrameId}
    (heap : m.heap.Sound fun _ => True) (known : f < m.heap.next)
    (expression : expr.Sound (fun _ => True) m.heap.next) :
    (match evaluateWithin limit expr f m with
      | .ok v m' => v.Sound (fun _ => True) m'.heap.next ∧ m'.heap.Sound fun _ => True
      | .error e m' => (e.IsRunError ∨ e = .tooDeep) ∧ m'.heap.Sound fun _ => True) ∧
    ∀ n, Value.InRange n → ∃ sign units exact, Binary64.ofInt n = .finite sign units exact := by
  refine ⟨?_, fun n fits => ⟨_, _, _, Binary64.ofInt_eq_finite fits.natAbs_le⟩⟩
  have safe := safe_evaluateWithin (fun _ _ _ _ => trivial) limit expr f m heap expression known
  simp only [SafeValue, Safe, Ends] at safe
  cases ended : evaluateWithin limit expr f m with
  | ok v m' => rw [ended] at safe; exact ⟨safe.2, safe.1.sound⟩
  | error e m' => rw [ended] at safe; exact ⟨safe.2, safe.1.sound⟩

/-- `(/ a (length r))` in a procedure of `a . r`, called with one argument: the rest is empty,
and the division by its length is an error of the language. -/
theorem evaluateWithin_has_no_fault_dividing :
    let quotient : Value := .list [.symbol "/", .symbol "a", .list [.symbol "length", .symbol "r"]]
    let expr : Value := .list [.proc 0 ["a", ".", "r"] quotient 0, .int 1]
    let m := Machine.initial
    (m.heap.Sound fun _ => True) ∧ 0 < m.heap.next ∧ expr.Sound (fun _ => True) m.heap.next ∧
    (match evaluateWithin 9 expr 0 m with
      | .ok v m' => v.Sound (fun _ => True) m'.heap.next ∧ m'.heap.Sound fun _ => True
      | .error e m' => (e.IsRunError ∨ e = .tooDeep) ∧ m'.heap.Sound fun _ => True) ∧
    (match evaluateWithin 9 expr 0 m with
      | .ok .. => none
      | .error e _ => some e) = some (.problem "/" .divisionByZero) := by
  intro quotient expr m
  have heap : m.heap.Sound fun _ => True := Heap.sound_initial
  have known : 0 < m.heap.next := by decide
  have body : quotient.Sound (fun _ => True) m.heap.next := by
    have inner : (Value.list [.symbol "length", .symbol "r"]).Sound (fun _ => True) m.heap.next :=
      .list (by simp [Value.Sound.symbol])
    exact .list (by simp [Value.Sound.symbol, inner])
  have binds : Procedure.BindsWell ["a", ".", "r"] := fun _ => by decide
  have called : (Value.proc 0 ["a", ".", "r"] quotient 0).Sound (fun _ => True) m.heap.next :=
    .proc (by simp) binds body known
  have one : (Value.int 1).Sound (fun _ => True) m.heap.next := .int (by decide)
  have expression : expr.Sound (fun _ => True) m.heap.next := .list (by simp [called, one])
  exact ⟨heap, known, expression, (evaluateWithin_has_no_fault 9 heap known expression).1,
    by decide +kernel⟩

end Eval

end SmallLisp
