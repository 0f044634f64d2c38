import SmallLisp.Proofs.Environment.Forest
import SmallLisp.Proofs.Evaluation.Reporting

/-! The names of constants cannot be given another meaning. A frame may bind them, but what it
binds them to is never looked up; that it does is seen only where its names are listed. -/
namespace SmallLisp

namespace Bindings

/-- All names but those of constants are bound to the same. -/
def DifferInConstants (b b' : Bindings) : Prop :=
  ∀ name, constants.lookup name = none → b.get? name = b'.get? name

variable {b b' : Bindings} {name : String} {v : Value}

theorem differInConstants_refl (b : Bindings) : b.DifferInConstants b := fun _ _ => rfl

theorem DifferInConstants.insert (differ : b.DifferInConstants b') (name : String) (v : Value) :
    (b.insert name v).DifferInConstants (b'.insert name v) := by
  intro other bindable
  rw [get?_insert, get?_insert, differ other bindable]

theorem DifferInConstants.erase (differ : b.DifferInConstants b') (name : String) :
    (b.erase name).DifferInConstants (b'.erase name) := by
  intro other bindable
  rw [get?_erase, get?_erase, differ other bindable]

theorem differInConstants_insert (b : Bindings) (constant : constants.lookup name ≠ none)
    (v : Value) : b.DifferInConstants (b.insert name v) := by
  intro other bindable
  have apart : name ≠ other := fun same => constant (same ▸ bindable)
  rw [get?_insert, if_neg apart]

theorem differInConstants_erase (b : Bindings) (constant : constants.lookup name ≠ none) :
    b.DifferInConstants (b.erase name) := by
  intro other bindable
  have apart : name ≠ other := fun same => constant (same ▸ bindable)
  rw [get?_erase, if_neg apart]

theorem DifferInConstants.foldl_insert (differ : b.DifferInConstants b')
    (definitions : List (String × Value)) :
    (definitions.foldl (fun b d => Bindings.insert d.1 d.2 b) b).DifferInConstants
      (definitions.foldl (fun b d => Bindings.insert d.1 d.2 b) b') := by
  induction definitions generalizing b b' with
  | nil => exact differ
  | cons d rest ih => exact ih (differ.insert d.1 d.2)

/-- One definition more, of the name of a constant. -/
theorem differInConstants_ofDefinitions (constant : constants.lookup name ≠ none) (v : Value)
    (earlier later : List (String × Value)) :
    (ofDefinitions (earlier ++ later)).DifferInConstants
      (ofDefinitions (earlier ++ (name, v) :: later)) := by
  rw [ofDefinitions, ofDefinitions, List.foldl_append, List.foldl_append, List.foldl_cons]
  exact (differInConstants_insert _ constant v).foldl_insert later

end Bindings

namespace Heap

/-- The frames lie in one another alike, and each binds the same to all names but those of
constants. -/
structure DifferInConstants (h h' : Heap) : Prop where
  next : h.next = h'.next
  outer? : ∀ f, h.outer? f = h'.outer? f
  bindings : ∀ f, (h.bindings f).DifferInConstants (h'.bindings f)

variable {h h' : Heap} {name : String}

theorem DifferInConstants.chainFrom (differ : h.DifferInConstants h') (steps : Nat) (f : FrameId) :
    h.chainFrom steps f = h'.chainFrom steps f := by
  induction steps generalizing f with
  | zero => rfl
  | succ steps ih => simp only [Heap.chainFrom, differ.next, differ.outer? f, ih]

theorem DifferInConstants.get (differ : h.DifferInConstants h') (f : FrameId)
    (bindable : constants.lookup name = none) : h.get f name = h'.get f name := by
  have bound : (fun g => (h.bindings g).get? name) = fun g => (h'.bindings g).get? name :=
    funext fun g => differ.bindings g name bindable
  rw [Heap.get, Heap.get, lookup?, lookup?, chain, chain, differ.chainFrom, bound]

theorem bindings_update_if (h : Heap) (f g : FrameId) (change : Bindings → Bindings) :
    (h.update f change).bindings g =
      if g = f ∧ f < h.next then change (h.bindings f) else h.bindings g := by
  rcases Nat.lt_or_ge f h.next with known | unknown
  · simp only [bindings_update h known, known, and_true]
  · have absent : ¬ f < h.frames.size := Nat.not_lt.mpr unknown
    have unchanged : h.update f change = h := by simp [update, Array.modify, Array.modifyM, absent]
    rw [unchanged, if_neg fun found => absent found.2]

theorem DifferInConstants.update (differ : h.DifferInConstants h') (f : FrameId)
    {change : Bindings → Bindings}
    (keeps : ∀ b b', b.DifferInConstants b' → (change b).DifferInConstants (change b')) :
    (h.update f change).DifferInConstants (h'.update f change) where
  next := by rw [next_update, next_update, differ.next]
  outer? g := by rw [outer?_update, outer?_update, differ.outer?]
  bindings g := by
    rw [bindings_update_if, bindings_update_if, differ.next]
    split
    · exact keeps _ _ (differ.bindings f)
    · exact differ.bindings g

theorem DifferInConstants.push (differ : h.DifferInConstants h') (outer : Option FrameId)
    {b b' : Bindings} (inside : b.DifferInConstants b') :
    (h.push ⟨b, outer⟩).DifferInConstants (h'.push ⟨b', outer⟩) where
  next := by rw [next_push, next_push, differ.next]
  outer? g := by rw [outer?_push, outer?_push, differ.next, differ.outer?]
  bindings g := by
    rw [bindings_push, bindings_push, differ.next]
    split
    · exact inside
    · exact differ.bindings g

theorem differInConstants_refl (h : Heap) : h.DifferInConstants h :=
  ⟨rfl, fun _ => rfl, fun _ => Bindings.differInConstants_refl _⟩

theorem differInConstants_update (h : Heap) (f : FrameId) {change : Bindings → Bindings}
    (differ : ∀ b : Bindings, b.DifferInConstants (change b)) :
    h.DifferInConstants (h.update f change) where
  next := (next_update ..).symm
  outer? g := (outer?_update ..).symm
  bindings g := by
    rw [bindings_update_if]
    split
    · next found =>
      rw [found.1]
      exact differ (h.bindings f)
    · exact Bindings.differInConstants_refl _

end Heap

/-- The machine with another heap. -/
def Machine.onHeap (m : Machine) (h : Heap) : Machine := { m with heap := h }

namespace Eval

/-- Evaluation in which it is the error `bar` to list the names of a frame. -/
def evaluateUnlisted (bar : EvalError) : Nat → Evaluator
  | 0, _, _ => throw .tooDeep
  | n + 1, expr, f =>
    if expr.listsNames then throw bar else step (evaluateUnlisted bar n) expr f

/-- Unless the first computation ends in `bar`, it is the second, which ends alike on heaps that
differ in bindings of constants only, and leaves such heaps. -/
def Overlooks (bar : EvalError) {α : Type} (x y : Eval α) : Prop :=
  ∀ m h, m.heap.DifferInConstants h → (∃ m', x m = .error bar m') ∨
    y m = x m ∧ ∃ h', (after y m).heap.DifferInConstants h' ∧
      y (m.onHeap h) = changed (·.onHeap h') (y m)

variable {bar : EvalError} {α β : Type} {x y : Eval α}

theorem overlooks_self (same : ∀ m h, m.heap.DifferInConstants h →
      ∃ h', (after x m).heap.DifferInConstants h' ∧ x (m.onHeap h) = changed (·.onHeap h') (x m)) :
    Overlooks bar x x :=
  fun m h differ => .inr ⟨rfl, same m h differ⟩

theorem Overlooks.bind {next next' : α → Eval β} (first : Overlooks bar x y)
    (rest : ∀ a, Overlooks bar (next a) (next' a)) : Overlooks bar (x >>= next) (y >>= next') := by
  intro m h differ
  change (∃ m', EStateM.bind x next m = .error bar m') ∨
    EStateM.bind y next' m = EStateM.bind x next m ∧
    ∃ h', (after (EStateM.bind y next') m).heap.DifferInConstants h' ∧
      EStateM.bind y next' (m.onHeap h) = changed (·.onHeap h') (EStateM.bind y next' m)
  simp only [EStateM.bind, after]
  rcases first m h differ with ⟨m', barred⟩ | ⟨same, h', differ', alike⟩
  · exact .inl ⟨m', by rw [barred]⟩
  · rw [alike, same]
    rw [after, same] at differ'
    cases ended : x m with
    | ok a m' =>
      rw [ended] at differ'
      exact rest a m' h' differ'
    | error e m' =>
      rw [ended] at differ'
      exact .inr ⟨rfl, h', differ', rfl⟩

theorem overlooks_resolve (name : String) (f : FrameId) :
    Overlooks bar (resolve name f) (resolve name f) := by
  refine overlooks_self fun m h differ => ⟨h, ?_⟩
  cases constant : constants.lookup name with
  | some v =>
    have found : resolve name f = pure v := by rw [resolve, constant]
    rw [found]
    exact ⟨differ, rfl⟩
  | none =>
    have found : resolve name f = lookup f name := by rw [resolve, constant]
    rw [found]
    refine ⟨differ, ?_⟩
    change EStateM.Result.ok (h.get f name) _ = EStateM.Result.ok (m.heap.get f name) _
    rw [differ.get f constant]

theorem overlooks_log (e : Event) : Overlooks bar (log e) (log e) := by
  refine overlooks_self fun m h differ => ⟨h, ?_⟩
  have level : (m.onHeap h).level = m.level := rfl
  rw [after, log, log, level]
  by_cases overflows : e.Overflows m.level
  · rw [if_pos overflows, if_pos overflows]
    exact ⟨differ, rfl⟩
  · rw [if_neg overflows, if_neg overflows]
    exact ⟨differ, rfl⟩

theorem congruence_overlooks : Congruence (Overlooks bar) where
  pure _ := overlooks_self fun _ h differ => ⟨h, differ, rfl⟩
  throw _ := overlooks_self fun _ h differ => ⟨h, differ, rfl⟩
  bind := .bind
  define f name v := overlooks_self fun m h differ =>
    ⟨h.define f name v, differ.update f fun _ _ inside => inside.insert name v, rfl⟩
  undefine f name := overlooks_self fun m h differ =>
    ⟨h.undefine f name, differ.update f fun _ _ inside => inside.erase name, rfl⟩
  newFrame bindings outer := overlooks_self fun m h differ => by
    refine ⟨h.push ⟨bindings, some outer⟩, differ.push (some outer) (Bindings.differInConstants_refl _), ?_⟩
    change EStateM.Result.ok h.next _ = EStateM.Result.ok m.heap.next _
    rw [differ.next]
    rfl
  newProcedure _ _ _ := overlooks_self fun _ h differ => ⟨h, differ, rfl⟩
  resolve := overlooks_resolve
  print _ := overlooks_self fun _ h differ => ⟨h, differ, rfl⟩
  calling _ _ := overlooks_log _
  operatorEvaluated _ _ := overlooks_log _
  choose n := overlooks_self fun m h differ => by
    obtain ⟨i, seed, drawn⟩ := choose_of_seed n m
    rw [after, drawn m rfl, drawn (m.onHeap h) rfl]
    exact ⟨h, differ, rfl⟩

theorem overlooks_evaluateWithin (limit : Nat) :
    Abreast (Overlooks bar) (evaluateUnlisted bar limit) (evaluateWithin limit) := by
  induction limit with
  | zero => exact fun _ _ => congruence_overlooks.throw _
  | succ limit ih =>
    intro expr f
    rw [evaluateUnlisted]
    by_cases lists : expr.listsNames = true
    · rw [if_pos lists]
      exact fun m _ _ => .inl ⟨m, rfl⟩
    · rw [if_neg lists]
      exact congruence_overlooks.step ih f expr fun listed => absurd listed lists

/-- What frames bind to the names of constants never changes a result. A run that lists no names,
so that it does not end in `bar` where listing them does, ends alike on heaps that differ in such
bindings only, prints and logs the same, and leaves heaps that differ in no more. It makes no other
difference to a heap to bind such a name or to take its binding away, nor to have it as a
parameter. -/
theorem evaluateWithin_overlooks_constants (limit : Nat) (expr : Value) (f : FrameId)
    {m : Machine} {h : Heap} (differ : m.heap.DifferInConstants h) {bar : EvalError}
    (unlisted : ∀ m', evaluateUnlisted bar limit expr f m ≠ .error bar m') :
    (∃ h', (after (evaluateWithin limit expr f) m).heap.DifferInConstants h' ∧
      evaluateWithin limit expr f (m.onHeap h) =
        changed (·.onHeap h') (evaluateWithin limit expr f m)) ∧
    ∀ name, constants.lookup name ≠ none → ∀ g v,
      m.heap.DifferInConstants (m.heap.define g name v) ∧
      m.heap.DifferInConstants (m.heap.undefine g name) ∧
      ∀ definitions definitions' outer,
        (m.heap.push ⟨.ofDefinitions (definitions ++ definitions'), outer⟩).DifferInConstants
          (m.heap.push ⟨.ofDefinitions (definitions ++ (name, v) :: definitions'), outer⟩) := by
  refine ⟨?_, fun name constant g v => ⟨?_, ?_, fun definitions definitions' outer => ?_⟩⟩
  · rcases overlooks_evaluateWithin limit expr f m h differ with ⟨m', barred⟩ | ⟨-, alike⟩
    · exact absurd barred (unlisted m')
    · exact alike
  · exact Heap.differInConstants_update _ g fun b => Bindings.differInConstants_insert b constant v
  · exact Heap.differInConstants_update _ g fun b => Bindings.differInConstants_erase b constant
  · refine (Heap.differInConstants_refl _).push outer ?_
    exact Bindings.differInConstants_ofDefinitions constant v definitions definitions'

/-- `(let ((MAX x)) (begin (define else MAX) (print else) (undef pi) pi))`, inside a frame that
binds `NAN` and not `pi`, and inside one that binds `pi` and not `NAN`. -/
theorem evaluateWithin_overlooks_constants_bound :
    let actions := [Value.list [.symbol "define", .symbol "else", .symbol "MAX"],
      .list [.symbol "print", .symbol "else"], .list [.symbol "undef", .symbol "pi"], .symbol "pi"]
    let expr : Value := .list [.symbol "let", .list [.list [.symbol "MAX", .symbol "x"]],
      .list (.symbol "begin" :: actions)]
    let m := Machine.initial.onHeap ⟨#[⟨[("x", .int 1)], none⟩, ⟨[("NAN", .nil)], some 0⟩]⟩
    let h : Heap := ⟨#[⟨[("pi", .int 3), ("x", .int 1)], none⟩, ⟨[("pi", .int 4)], some 0⟩]⟩
    let bar : EvalError := .misapplied "env"
    m.heap.DifferInConstants h ∧ (∀ m', evaluateUnlisted bar 9 expr 1 m ≠ .error bar m') ∧
    constants.lookup "pi" ≠ none ∧
    ∃ m' h', evaluateWithin 9 expr 1 m = .ok (.float .pi) m' ∧ m'.printed = "#t\n" ∧
      evaluateWithin 9 expr 1 (m.onHeap h) = .ok (.float .pi) (m'.onHeap h') ∧
      m'.heap.DifferInConstants h' ∧ m.heap.DifferInConstants (m.heap.define 0 "pi" (.int 3)) := by
  intro actions expr m h bar
  have differ : m.heap.DifferInConstants h := by
    refine ⟨rfl, fun f => ?_, fun f name bindable => ?_⟩
    · rcases f with _ | _ | f <;> rfl
    · have isPi : "pi" ≠ name := by rintro rfl; cases bindable
      have isNan : "NAN" ≠ name := by rintro rfl; cases bindable
      rcases f with _ | _ | f
      · simp [m, h, Machine.onHeap, Heap.bindings, Bindings.get?, isPi]
      · simp [m, h, Machine.onHeap, Heap.bindings, Bindings.get?, isPi, isNan]
      · rfl
  have unlisted (m' : Machine) : evaluateUnlisted bar 9 expr 1 m ≠ .error bar m' := by
    intro barred
    cases barred
  have constant : constants.lookup "pi" ≠ none := by decide
  obtain ⟨⟨h', differ', alike⟩, harmless⟩ :=
    evaluateWithin_overlooks_constants 9 expr 1 differ unlisted
  exact ⟨differ, unlisted, constant, _, h', rfl, by decide +kernel, alike, differ',
    (harmless "pi" constant 0 (.int 3)).1⟩

end Eval

end SmallLisp
