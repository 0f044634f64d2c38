import SmallLisp.Proofs.Environment.Sound
import SmallLisp.Proofs.Evaluation.Arithmetic
import SmallLisp.Evaluation.Builtin

/-! Builtins and calls on sound operands. An arity admits no number of operands that its
builtin could not take apart, and the parameters of a sound procedure find their arguments
wherever the count is right. -/
namespace SmallLisp

variable {name : String → Prop} {frames : Nat}

namespace Arity

/-- What the number of operands must be. -/
def Admits (a : Arity) (got : Nat) : Prop :=
  match a.exact with
  | some n => got = n
  | none => a.least ≤ got

theorem yields_check (a : Arity) (who : String) (got : Nat) :
    Yields (a.check who got) fun _ => a.Admits got := by
  simp only [check, Admits]
  cases a.exact with
  | some n =>
    dsimp only
    split
    · next same => exact yields_ok same
    · exact yields_error trivial
  | none =>
    dsimp only
    split
    · exact yields_error trivial
    · next enough => exact yields_ok (Nat.le_of_not_lt enough)

end Arity

namespace Procedure

theorem yields_paramNames {params : List Value} (sound : ∀ v ∈ params, v.Sound name frames) :
    Yields (paramNames params) fun names => ∀ p ∈ names, name p := by
  induction params with
  | nil => exact yields_ok (by simp)
  | cons v rest ih =>
    have first := sound v (by simp)
    unfold paramNames
    split
    · next same => cases same
    · next same =>
      cases same
      apply (ih fun w member => sound w (by simp [member])).bind
      intro names each
      exact yields_ok (by simpa [first.symbol_name] using each)
    · next same =>
      cases same
      exact yields_error (EvalError.isRunError_mistyped _ _ first)

theorem yields_checkCount (who : String) (params : List String) (args : List Value) :
    Yields (checkCount who params args) fun _ =>
      if restMarker ∈ params then params.idxOf restMarker ≤ args.length
      else args.length = params.length := by
  simp only [checkCount, isVariadic, fixedCount]
  by_cases variadic : restMarker ∈ params
  · simp only [List.contains_iff_mem.mpr variadic, if_pos variadic, if_true]
    split
    · next fits => exact yields_ok fits
    · exact yields_error trivial
  · have plain : params.contains restMarker = false := by simpa using variadic
    simp only [plain, if_neg variadic, List.idxOf_eq_length variadic, Bool.false_eq_true, if_false]
    split
    · next fits => exact yields_ok fits
    · exact yields_error trivial

/-- Of a sound procedure every parameter has its argument once their number is right. -/
theorem yields_pairUp (who : String) {params : List String} {args : List Value}
    (named : ∀ p ∈ params, name p) (binds : BindsWell params)
    (sound : ∀ v ∈ args, v.Sound name frames)
    (count : if restMarker ∈ params then params.idxOf restMarker ≤ args.length
      else args.length = params.length) :
    Yields (pairUp who params args) fun ds =>
      (∀ d ∈ ds, name d.1) ∧ ∀ d ∈ ds, d.2.Sound name frames := by
  induction params generalizing args with
  | nil => exact yields_ok ⟨by simp, by simp⟩
  | cons p params ih =>
    simp only [pairUp]
    by_cases marker : p = restMarker
    · rw [if_pos marker]
      have place : 2 = params.length + 1 := by simpa [marker] using binds (by simp [marker])
      cases params with
      | nil => simp at place
      | cons rest _ =>
        exact yields_ok ⟨by simpa using named rest (by simp), by simpa using .list sound⟩
    · rw [if_neg marker]
      have shift : (p :: params).idxOf restMarker = params.idxOf restMarker + 1 := by
        simp [List.idxOf_cons, beq_false_of_ne marker]
      have member : restMarker ∈ p :: params ↔ restMarker ∈ params := by simp [Ne.symm marker]
      cases args with
      | nil =>
        rw [shift] at count
        split at count <;> simp at count
      | cons a args =>
        apply Yields.bind (ih (fun q later => named q (by simp [later])) ?binds
          (fun v later => sound v (by simp [later])) ?count)
        case binds =>
          intro later
          have place := binds (member.mpr later)
          rw [shift, List.length_cons] at place
          omega
        case count =>
          rw [shift] at count
          simpa [member] using count
        · rintro ds ⟨keys, values⟩
          exact yields_ok ⟨by simpa [named p] using keys, by simpa [sound a] using values⟩

theorem yields_bind (who : String) {params : List String} {args : List Value}
    (named : ∀ p ∈ params, name p) (binds : BindsWell params)
    (sound : ∀ v ∈ args, v.Sound name frames) :
    Yields (bind who params args) (Bindings.Sound name frames) := by
  apply (yields_checkCount who params args).bind
  intro _ count
  apply (yields_pairUp who named binds sound count).bind
  rintro ds ⟨keys, values⟩
  exact yields_ok (Bindings.sound_ofDefinitions keys values)

end Procedure

namespace Primitive

theorem yields_items (p : Primitive) {v : Value} (sound : v.Sound name frames) :
    Yields (p.items v) fun items => ∀ w ∈ items, w.Sound name frames := by
  simp only [items]
  split
  · exact yields_ok sound.items
  · exact yields_error (EvalError.isRunError_mistyped _ _ sound)

theorem yields_string (p : Primitive) {v : Value} (sound : v.Sound name frames) :
    Yields (p.string v) fun _ => True := by
  simp only [string]
  split
  · exact yields_ok trivial
  · exact yields_error (EvalError.isRunError_mistyped _ _ sound)

theorem yields_itemAt {items : List Value} (each : ∀ w ∈ items, w.Sound name frames)
    {index : Value} (sound : index.Sound name frames) :
    Yields (itemAt items index) (Value.Sound name frames) := by
  simp only [itemAt]
  split
  · split
    · split
      · next found => exact yields_ok (each _ (List.mem_of_getElem? found))
      · exact yields_error trivial
    · exact yields_error trivial
  · exact yields_error (EvalError.isRunError_mistyped _ _ sound)

theorem sound_count (n : Nat) : (count n).Sound name frames := by
  apply Value.Sound.int
  simp only [Value.InRange, Value.leastInt, Value.greatestInt]
  omega

theorem yields_measure {v : Value} (sound : v.Sound name frames) :
    Yields (measure v) (Value.Sound name frames) := by
  simp only [measure]
  split
  · exact yields_ok (sound_count _)
  · exact yields_ok (sound_count _)
  · exact yields_error (EvalError.isRunError_mistyped _ _ sound)

theorem yields_displays (separator : String) {args : List Value}
    (sound : ∀ v ∈ args, v.Sound name frames) :
    Yields (displays separator args) fun _ => True := by
  have each : Yields (args.mapM Value.display?) fun _ => True := by
    induction args with
    | nil => exact yields_ok trivial
    | cons v rest ih =>
      rw [List.mapM_cons]
      apply (sound v (by simp)).yields_display?.bind
      intro _ _
      exact (ih fun w member => sound w (by simp [member])).bind fun _ _ => yields_ok trivial
  exact each.bind fun _ _ => yields_ok trivial

/-- Every result is sound. The arity leaves no list of operands that the procedure cannot
take apart. -/
theorem yields_result {p : Primitive} {args : List Value} (pure' : p ≠ .print ∧ p ≠ .rand)
    (admits : p.arity.Admits args.length) (sound : ∀ v ∈ args, v.Sound name frames) :
    Yields (p.result args) (Value.Sound name frames) := by
  have one (exact : args.length = 1) : ∃ a, args = [a] ∧ a.Sound name frames := by
    obtain ⟨a, rfl⟩ := List.length_eq_one_iff.mp exact
    exact ⟨a, rfl, sound a (by simp)⟩
  have two (exact : args.length = 2) :
      ∃ a b, args = [a, b] ∧ a.Sound name frames ∧ b.Sound name frames := by
    obtain ⟨a, b, rfl⟩ := List.length_eq_two.mp exact
    exact ⟨a, b, rfl, sound a (by simp), sound b (by simp)⟩
  cases p with
  | arithmetic op => exact op.yields_fold (Nat.lt_of_lt_of_le Nat.zero_lt_two admits) sound
  | equal | unequal =>
    obtain ⟨a, b, rfl, -, -⟩ := two admits
    exact (Value.yields_equal? a b).bind fun _ _ => yields_ok (.bool _)
  | order op | and | or =>
    obtain ⟨a, b, rfl, -, -⟩ := two admits
    exact yields_ok (.bool _)
  | not =>
    obtain ⟨a, rfl, -⟩ := one admits
    exact yields_ok (.bool _)
  | listRef =>
    obtain ⟨a, b, rfl, left, right⟩ := two admits
    exact (yields_items _ left).bind fun items each => yields_itemAt each right
  | append =>
    obtain ⟨a, b, rfl, left, right⟩ := two admits
    apply (yields_items _ left).bind
    intro xs first
    apply (yields_items _ right).bind
    intro ys second
    exact yields_ok (.list fun v member => (List.mem_append.mp member).elim (first v) (second v))
  | car =>
    obtain ⟨a, rfl, list⟩ := one admits
    apply (yields_items _ list).bind
    intro items each
    cases items with
    | nil => exact yields_ok .nil
    | cons v rest => exact yields_ok (each v (by simp))
  | cdr =>
    obtain ⟨a, rfl, list⟩ := one admits
    apply (yields_items _ list).bind
    intro items each
    exact yields_ok (.list fun v member => each v (List.mem_of_mem_tail member))
  | length =>
    obtain ⟨a, rfl, measured⟩ := one admits
    exact yields_measure measured
  | cons =>
    obtain ⟨a, b, rfl, left, right⟩ := two admits
    apply (yields_items _ right).bind
    intro items each
    exact yields_ok (.list (by simpa [left] using each))
  | list => exact yields_ok (.list sound)
  | cat => exact (yields_displays "" sound).bind fun text _ => yields_ok (.str text)
  | uppercase | lowercase =>
    obtain ⟨a, rfl, text⟩ := one admits
    exact (yields_string _ text).bind fun text _ => yields_ok (.str _)
  | print => exact absurd rfl pure'.1
  | rand => exact absurd rfl pure'.2

end Primitive

end SmallLisp
