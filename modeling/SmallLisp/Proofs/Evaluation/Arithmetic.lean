import SmallLisp.Proofs.Number.Rounding
import SmallLisp.Proofs.Value.Sound
import SmallLisp.Evaluation.Arithmetic

/-! Arithmetic on sound operands stays within what the machine's own arithmetic defines. No
divisor is zero where a quotient is formed, every integer that is widened has a finite
neighbour, and an integer that is out of range is an error rather than a result. -/
namespace SmallLisp

theorem Value.InRange.natAbs_le {n : Int} (fits : Value.InRange n) : n.natAbs ≤ 2 ^ 63 := by
  obtain ⟨low, high⟩ := fits
  simp only [leastInt] at low
  simp only [greatestInt] at high
  omega

namespace Binary64

theorem exists_div?_eq {b : Binary64} (nonzero : b.isZero = false) (a : Binary64) :
    ∃ x, a.div? b = some x := by
  cases b with
  | nan => cases a <;> exact ⟨_, rfl⟩
  | infinite t => cases a <;> exact ⟨_, rfl⟩
  | finite t n exact' =>
    have nonzero : n ≠ 0 := by simpa [isZero] using nonzero
    cases a <;> exact ⟨_, if_neg nonzero⟩

theorem exists_rem?_eq {a b : Binary64} (nonzero : b.isZero = false)
    (bounded : a.isInfinite = false) : ∃ x, a.rem? b = some x := by
  cases a with
  | nan => exact ⟨_, rfl⟩
  | infinite s => cases bounded
  | finite s m exact' =>
    cases b with
    | nan => exact ⟨_, rfl⟩
    | infinite t => exact ⟨_, rfl⟩
    | finite t n exact'' =>
      have nonzero : n ≠ 0 := by simpa [isZero] using nonzero
      exact ⟨_, if_neg nonzero⟩

end Binary64

namespace ArithmeticOp

variable {name : String → Prop} {frames : Nat}

def Operand.Fits : Operand → Prop
  | .int n => Value.InRange n
  | .float _ => True

theorem Operand.Fits.sound {o : Operand} (fits : o.Fits) : o.toValue.Sound name frames := by
  cases o with
  | int n => exact .int fits
  | float x => exact .float x

theorem exists_onInt_eq (op : ArithmeticOp) (a : Int) {b : Int}
    (divisible : ¬(op.divides ∧ b = 0)) : ∃ r, op.onInt a b = .ok r := by
  cases op with
  | add => exact ⟨_, rfl⟩
  | sub => exact ⟨_, rfl⟩
  | mul => exact ⟨_, rfl⟩
  | div =>
    have nonzero : b ≠ 0 := fun zero => divisible ⟨rfl, zero⟩
    exact ⟨_, if_neg nonzero⟩
  | modulo =>
    have nonzero : b ≠ 0 := fun zero => divisible ⟨rfl, zero⟩
    rw [onInt, quotient, if_neg nonzero]
    exact ⟨_, rfl⟩

theorem yields_checkedInt (op : ArithmeticOp) (a b : Int) :
    Yields (op.checkedInt a b) Value.InRange := by
  simp only [checkedInt]
  split
  · exact yields_error trivial
  · next divisible =>
    obtain ⟨r, computed⟩ := op.exists_onInt_eq a divisible
    rw [computed]
    apply Yields.bind (yields_ok rfl)
    rintro _ rfl
    split
    · next fits => exact yields_ok fits
    · exact yields_error trivial

/-- The cases in which the machine's own arithmetic is undefined have been taken out before. -/
theorem exists_onFloat_eq (op : ArithmeticOp) (a b : Binary64) : ∃ x, op.onFloat a b = .ok x := by
  cases op with
  | add => exact ⟨_, rfl⟩
  | sub => exact ⟨_, rfl⟩
  | mul => exact ⟨_, rfl⟩
  | div =>
    rw [onFloat, ratio]
    cases zero : b.isZero with
    | true => exact ⟨_, rfl⟩
    | false =>
      obtain ⟨x, computed⟩ := Binary64.exists_div?_eq zero a
      simp only [computed]
      exact ⟨_, rfl⟩
  | modulo =>
    rw [onFloat, remainder]
    cases outside : b.isZero || a.isInfinite with
    | true => exact ⟨_, rfl⟩
    | false =>
      obtain ⟨nonzero, bounded⟩ := Bool.or_eq_false_iff.mp outside
      obtain ⟨x, computed⟩ := Binary64.exists_rem?_eq nonzero bounded
      simp only [computed]
      exact ⟨_, rfl⟩

theorem exists_toFloat_eq {o : Operand} (fits : o.Fits) : ∃ x, o.toFloat = .ok x := by
  cases o with
  | int n =>
    have finite : (Binary64.ofInt n).isInfinite = false := by
      rw [Binary64.ofInt_eq_finite (Value.InRange.natAbs_le fits)]
      rfl
    simp only [Operand.toFloat, widen, finite]
    exact ⟨_, rfl⟩
  | float x => exact ⟨x, rfl⟩

theorem yields_step (op : ArithmeticOp) {a b : Operand} (left : a.Fits) (right : b.Fits) :
    Yields (op.step a b) Operand.Fits := by
  simp only [step]
  split
  · next a b => exact (op.yields_checkedInt a b).map fun _ => id
  · obtain ⟨x, widened⟩ := exists_toFloat_eq left
    obtain ⟨y, widened'⟩ := exists_toFloat_eq right
    obtain ⟨z, computed⟩ := op.exists_onFloat_eq x y
    rw [widened, widened']
    simp only [bind, Except.bind, computed]
    exact yields_ok trivial

theorem yields_operands (op : ArithmeticOp) {args : List Value}
    (sound : ∀ v ∈ args, v.Sound name frames) :
    Yields (op.operands args) fun os => (∀ o ∈ os, o.Fits) ∧ os.length = args.length := by
  induction args with
  | nil => exact yields_ok ⟨by simp, rfl⟩
  | cons v rest ih =>
    have first := sound v (by simp)
    have one : Yields (op.operand v) Operand.Fits := by
      simp only [operand]
      split
      · exact yields_ok first.int_inRange
      · exact yields_ok trivial
      · exact yields_error (EvalError.isRunError_mistyped _ _ first)
    apply one.bind
    intro o fits
    apply (ih fun w member => sound w (by simp [member])).bind
    rintro os ⟨each, length⟩
    exact yields_ok ⟨by simpa [fits] using each, by simp [length]⟩

/-- Integers and floating point numbers in, a sound number out, or one of the language's
own failures. -/
theorem yields_fold (op : ArithmeticOp) {args : List Value} (nonempty : 0 < args.length)
    (sound : ∀ v ∈ args, v.Sound name frames) :
    Yields (op.fold args) (Value.Sound name frames) := by
  have folds (rest : List Operand) (first : Operand) (fits : first.Fits)
      (each : ∀ o ∈ rest, o.Fits) : Yields (rest.foldlM op.step first) Operand.Fits := by
    induction rest generalizing first with
    | nil => exact yields_ok fits
    | cons o rest ih =>
      apply (op.yields_step fits (each o (by simp))).bind
      exact fun r fits => ih r fits fun o member => each o (by simp [member])
  apply (op.yields_operands sound).bind
  rintro os ⟨each, length⟩
  cases os with
  | nil => simp [← length] at nonempty
  | cons first rest =>
    apply (folds rest first (each first (by simp)) fun o member => each o (by simp [member])).bind
    exact fun o fits => yields_ok fits.sound

end ArithmeticOp

end SmallLisp
