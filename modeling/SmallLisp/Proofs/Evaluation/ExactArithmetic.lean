import SmallLisp.Evaluation.Primitive
import SmallLisp.Proofs.Evaluation.Arithmetic

/-! Arithmetic against the unbounded integers. On integers a builtin is the exact left fold as long
as each step of that has a value and the value fits, and the first step that has none or does not
fit is the failure. Floating point numbers end the failures: from the first one on there are none. -/
namespace SmallLisp

namespace Binary64

theorem add_comm (a b : Binary64) : a.add b = b.add a := by
  cases a with
  | nan => cases b <;> rfl
  | infinite s =>
    cases b with
    | infinite t => cases s <;> cases t <;> rfl
    | _ => rfl
  | finite s m _ =>
    cases b with
    | finite t n _ => simp only [add, Int.add_comm (signed s m), Bool.and_comm s]
    | _ => rfl

theorem mul_comm (a b : Binary64) : a.mul b = b.mul a := by
  cases a with
  | nan => cases b <;> rfl
  | infinite s =>
    cases b with
    | infinite t => cases s <;> cases t <;> rfl
    | finite t n _ => rfl
    | nan => rfl
  | finite s m _ =>
    cases b with
    | finite t n _ =>
      have signs : (s != t) = (t != s) := by cases s <;> cases t <;> rfl
      simp only [mul, Nat.mul_comm m, signs]
    | infinite t => rfl
    | nan => rfl

end Binary64

namespace ArithmeticOp

/-- The operation on the unbounded integers; what divides is rounded toward zero, and has no
meaning by zero. -/
def exact (op : ArithmeticOp) (a b : Int) : Int :=
  match op with
  | .add => a + b
  | .sub => a - b
  | .mul => a * b
  | .div => a.tdiv b
  | .modulo => a.tmod b

/-- What is wrong with a step from an exact value. -/
def fault? (op : ArithmeticOp) (a b : Int) : Option Problem :=
  if op.divides ∧ b = 0 then some .divisionByZero
  else if Value.InRange (op.exact a b) then none
  else some .integerOverflow

/-- The exact value of the left fold after so many steps. -/
def exactAfter (op : ArithmeticOp) (first : Int) (rest : List Int) (steps : Nat) : Int :=
  (rest.take steps).foldl op.exact first

/-- What is wrong with the step of this number in the exact left fold. -/
def FaultAt (op : ArithmeticOp) (first : Int) (rest : List Int) (k : Nat) (p : Problem) : Prop :=
  ∃ b, rest[k]? = some b ∧ op.fault? (op.exactAfter first rest k) b = some p

/-- No step of the exact left fold divides by zero or leaves the range. -/
def Faultless (op : ArithmeticOp) (first : Int) (rest : List Int) : Prop :=
  ∀ k p, ¬ op.FaultAt first rest k p

/-- What is wrong with the first step that fails. -/
def FirstFault (op : ArithmeticOp) (first : Int) (rest : List Int) (p : Problem) : Prop :=
  ∃ k, op.FaultAt first rest k p ∧ ∀ j < k, ∀ q, ¬ op.FaultAt first rest j q

variable {op : ArithmeticOp} {first : Int} {rest : List Int} {p : Problem}

theorem checkedInt_eq (op : ArithmeticOp) (a b : Int) :
    op.checkedInt a b = match op.fault? a b with
      | some p => .error (.problem op.name p)
      | none => .ok (op.exact a b) := by
  simp only [checkedInt, fault?]
  split
  · rfl
  · next divisible =>
    have computed : op.onInt a b = .ok (op.exact a b) := by
      cases op with
      | add | sub | mul => rfl
      | div =>
        have nonzero : b ≠ 0 := fun zero => divisible ⟨rfl, zero⟩
        exact if_neg nonzero
      | modulo =>
        have nonzero : b ≠ 0 := fun zero => divisible ⟨rfl, zero⟩
        rw [onInt, quotient, if_neg nonzero]
        exact congrArg Except.ok (Int.tmod_def a b).symm
    rw [computed]
    by_cases fits : Value.InRange (op.exact a b)
    · simp only [if_pos fits]
      exact if_pos fits
    · simp only [if_neg fits]
      exact if_neg fits

theorem faultAt_zero {b : Int} : op.FaultAt first (b :: rest) 0 p ↔ op.fault? first b = some p := by
  simp [FaultAt, exactAfter]

theorem faultAt_succ {b : Int} {k : Nat} :
    op.FaultAt first (b :: rest) (k + 1) p ↔ op.FaultAt (op.exact first b) rest k p := by
  simp [FaultAt, exactAfter]

theorem faultless_cons {b : Int} : op.Faultless first (b :: rest) ↔
    op.fault? first b = none ∧ op.Faultless (op.exact first b) rest := by
  constructor
  · intro faultless
    refine ⟨?_, fun k p fault => faultless (k + 1) p (faultAt_succ.mpr fault)⟩
    exact Option.eq_none_iff_forall_ne_some.mpr fun p fault => faultless 0 p (faultAt_zero.mpr fault)
  · rintro ⟨fine, later⟩ k p fault
    cases k with
    | zero => cases fine.symm.trans (faultAt_zero.mp fault)
    | succ k => exact later k p (faultAt_succ.mp fault)

theorem firstFault_cons {b : Int} : op.FirstFault first (b :: rest) p ↔
    op.fault? first b = some p ∨ op.fault? first b = none ∧ op.FirstFault (op.exact first b) rest p := by
  constructor
  · rintro ⟨k, fault, before⟩
    cases k with
    | zero => exact .inl (faultAt_zero.mp fault)
    | succ k =>
      refine .inr ⟨?_, k, faultAt_succ.mp fault, fun j lt q earlier => ?_⟩
      · exact Option.eq_none_iff_forall_ne_some.mpr fun q earlier =>
          before 0 (Nat.succ_pos k) q (faultAt_zero.mpr earlier)
      · exact before (j + 1) (Nat.succ_lt_succ lt) q (faultAt_succ.mpr earlier)
  · rintro (here | ⟨fine, k, fault, before⟩)
    · exact ⟨0, faultAt_zero.mpr here, nofun⟩
    · refine ⟨k + 1, faultAt_succ.mpr fault, fun j lt q earlier => ?_⟩
      cases j with
      | zero => cases fine.symm.trans (faultAt_zero.mp earlier)
      | succ j => exact before j (Nat.lt_of_succ_lt_succ lt) q (faultAt_succ.mp earlier)

theorem faultless_or_firstFault (op : ArithmeticOp) (first : Int) (rest : List Int) :
    op.Faultless first rest ∨ ∃ p, op.FirstFault first rest p := by
  induction rest generalizing first with
  | nil => exact .inl fun k p ⟨b, found, _⟩ => by simp at found
  | cons b rest ih =>
    cases here : op.fault? first b with
    | some p => exact .inr ⟨p, firstFault_cons.mpr (.inl here)⟩
    | none =>
      rcases ih (op.exact first b) with later | ⟨p, later⟩
      · exact .inl (faultless_cons.mpr ⟨here, later⟩)
      · exact .inr ⟨p, firstFault_cons.mpr (.inr ⟨here, later⟩)⟩

/-- The steps over integers as far as they go, and then those over what follows. -/
theorem foldlM_of_faultless (faultless : op.Faultless first rest) (after : List Operand) :
    (rest.map Operand.int ++ after).foldlM op.step (.int first) =
      after.foldlM op.step (.int (rest.foldl op.exact first)) := by
  induction rest generalizing first with
  | nil => rfl
  | cons b rest ih =>
    obtain ⟨here, later⟩ := faultless_cons.mp faultless
    have stepped : op.step (.int first) (.int b) = .ok (.int (op.exact first b)) := by
      simp only [step, checkedInt_eq, here]
      rfl
    rw [List.map_cons, List.cons_append, List.foldlM_cons, stepped]
    exact ih later

theorem foldlM_of_firstFault (fault : op.FirstFault first rest p) (after : List Operand) :
    (rest.map Operand.int ++ after).foldlM op.step (.int first) = .error (.problem op.name p) := by
  induction rest generalizing first with
  | nil =>
    obtain ⟨k, ⟨b, found, _⟩, _⟩ := fault
    simp at found
  | cons b rest ih =>
    rw [List.map_cons, List.cons_append, List.foldlM_cons]
    rcases firstFault_cons.mp fault with here | ⟨fine, later⟩
    · have stepped : op.step (.int first) (.int b) = .error (.problem op.name p) := by
        simp only [step, checkedInt_eq, here]
        rfl
      rw [stepped]
      rfl
    · have stepped : op.step (.int first) (.int b) = .ok (.int (op.exact first b)) := by
        simp only [step, checkedInt_eq, fine]
        rfl
      rw [stepped]
      exact ih later

/-- A step fails only on two integers. -/
theorem exists_step_eq {a b : Operand} (left : a.Fits) (right : b.Fits)
    (wide : ∀ n, a = .int n → ∃ x, b = .float x) : ∃ y, op.step a b = .ok (.float y) := by
  obtain ⟨x, widened⟩ := exists_toFloat_eq left
  obtain ⟨x', widened'⟩ := exists_toFloat_eq right
  obtain ⟨y, computed⟩ := op.exists_onFloat_eq x x'
  have stepped : op.step a b = (do return .float (← op.onFloat (← a.toFloat) (← b.toFloat))) := by
    cases a with
    | int n =>
      obtain ⟨_, rfl⟩ := wide n rfl
      rfl
    | float _ => cases b <;> rfl
  rw [stepped, widened, widened']
  simp only [bind, Except.bind, computed]
  exact ⟨y, rfl⟩

theorem foldlM_of_float (op : ArithmeticOp) {after : List Operand} (fits : ∀ o ∈ after, o.Fits)
    (x : Binary64) :
    ∃ y, after.foldlM op.step (.float x) = .ok (.float y) := by
  induction after generalizing x with
  | nil => exact ⟨x, rfl⟩
  | cons o after ih =>
    obtain ⟨here, later⟩ := List.forall_mem_cons.mp fits
    obtain ⟨y, stepped⟩ := op.exists_step_eq (a := .float x) trivial here nofun
    rw [List.foldlM_cons, stepped]
    exact ih later y

/-- The integers that stand before a floating point number, or the end. -/
theorem exists_leading_ints (os : List Operand) : ∃ (ints : List Int) (after : List Operand),
    os = ints.map Operand.int ++ after ∧ ∀ o ∈ after.head?, ∃ x, o = .float x := by
  induction os with
  | nil => exact ⟨[], [], rfl, by simp⟩
  | cons o os ih =>
    cases o with
    | float x => exact ⟨[], .float x :: os, rfl, by simp⟩
    | int n =>
      obtain ⟨ints, after, rfl, ends⟩ := ih
      exact ⟨n :: ints, after, rfl, ends⟩

variable {args : List Value}

/-- An argument that is no number is found before the first step is taken. -/
theorem fold_of_not_number (before : List Value) {after : List Value} {v : Value}
    (numbers : ∀ w ∈ before, w.isNumber = true) (other : v.isNumber = false) :
    op.fold (before ++ v :: after) = .error (.mistyped op.name "number" v) := by
  have found : op.operands (before ++ v :: after) = .error (.mistyped op.name "number" v) := by
    induction before with
    | nil =>
      have mistyped : op.operand v = .error (.mistyped op.name "number" v) := by
        cases v <;> first | rfl | cases other
      rw [List.nil_append, operands, mistyped]
      rfl
    | cons w before ih =>
      obtain ⟨number, numbers⟩ := List.forall_mem_cons.mp numbers
      have taken : ∃ o, op.operand w = .ok o := by
        cases w <;> first | exact ⟨_, rfl⟩ | cases number
      obtain ⟨o, taken⟩ := taken
      rw [List.cons_append, operands, taken, ih numbers]
      rfl
  rw [fold, found]
  rfl

theorem operands_toValue (op : ArithmeticOp) (os : List Operand) :
    op.operands (os.map Operand.toValue) = .ok os := by
  induction os with
  | nil => rfl
  | cons o os ih =>
    have taken : op.operand o.toValue = .ok o := by cases o <;> rfl
    rw [List.map_cons, operands, taken, ih]
    rfl

theorem exists_operand {v : Value} (number : v.isNumber = true) :
    ∃ o : Operand, v = o.toValue := by
  cases v with
  | int n => exact ⟨.int n, rfl⟩
  | float x => exact ⟨.float x, rfl⟩
  | _ => cases number

theorem exists_operands (numbers : ∀ v ∈ args, v.isNumber = true) :
    ∃ os : List Operand, args = os.map Operand.toValue := by
  induction args with
  | nil => exact ⟨[], rfl⟩
  | cons v args ih =>
    obtain ⟨number, later⟩ := List.forall_mem_cons.mp numbers
    obtain ⟨o, rfl⟩ := exists_operand number
    obtain ⟨os, rfl⟩ := ih later
    exact ⟨o :: os, rfl⟩

theorem fold_toValue (op : ArithmeticOp) (o : Operand) (os : List Operand) :
    op.fold ((o :: os).map Operand.toValue) = (os.foldlM op.step o).map Operand.toValue := by
  rw [fold, operands_toValue]
  change (do return (← os.foldlM op.step o).toValue) = _
  cases os.foldlM op.step o <;> rfl

/-- Integers, and then numbers of either kind. -/
theorem ints_toValue (first : Int) (rest : List Int) (after : List Operand) :
    (first :: rest).map Value.int ++ after.map Operand.toValue =
      (.int first :: (rest.map Operand.int ++ after)).map Operand.toValue := by
  simp [Operand.toValue]

theorem fold_of_faultless (faultless : op.Faultless first rest) (after : List Operand) :
    op.fold ((first :: rest).map Value.int ++ after.map Operand.toValue) =
      op.fold (.int (rest.foldl op.exact first) :: after.map Operand.toValue) := by
  rw [ints_toValue, fold_toValue, foldlM_of_faultless faultless]
  exact (op.fold_toValue (.int (rest.foldl op.exact first)) after).symm

theorem fold_of_firstFault (fault : op.FirstFault first rest p) (after : List Operand) :
    op.fold ((first :: rest).map Value.int ++ after.map Operand.toValue) =
      .error (.problem op.name p) := by
  rw [ints_toValue, fold_toValue, foldlM_of_firstFault fault]
  rfl

/-- If nothing fails after the integers, the failures are those of the exact left fold. -/
theorem fold_eq_error_iff (after : List Operand) {e : EvalError}
    (resumes : op.Faultless first rest →
      ∃ v, op.fold (.int (rest.foldl op.exact first) :: after.map Operand.toValue) = .ok v) :
    op.fold ((first :: rest).map Value.int ++ after.map Operand.toValue) = .error e ↔
      ∃ p, op.FirstFault first rest p ∧ e = .problem op.name p := by
  constructor
  · intro failed
    rcases op.faultless_or_firstFault first rest with faultless | ⟨p, fault⟩
    · obtain ⟨v, resumed⟩ := resumes faultless
      rw [fold_of_faultless faultless, resumed] at failed
      cases failed
    · rw [fold_of_firstFault fault] at failed
      exact ⟨p, fault, (Except.error.inj failed).symm⟩
  · rintro ⟨p, fault, rfl⟩
    exact fold_of_firstFault fault after

theorem fold_ints_eq_ok_iff {v : Value} : op.fold ((first :: rest).map Value.int) = .ok v ↔
    op.Faultless first rest ∧ v = .int (rest.foldl op.exact first) := by
  rcases op.faultless_or_firstFault first rest with faultless | ⟨p, fault⟩
  · have resumed := fold_of_faultless faultless []
    rw [List.map_nil, List.append_nil] at resumed
    have folded : op.fold ((first :: rest).map Value.int) = .ok (.int (rest.foldl op.exact first)) :=
      resumed.trans rfl
    rw [folded]
    exact ⟨fun same => ⟨faultless, (Except.ok.inj same).symm⟩, fun ⟨_, same⟩ => by rw [same]⟩
  · have folded : op.fold ((first :: rest).map Value.int) = .error (.problem op.name p) := by
      simpa using fold_of_firstFault fault []
    obtain ⟨k, here, _⟩ := fault
    rw [folded]
    exact ⟨nofun, fun ⟨faultless, _⟩ => absurd here (faultless k p)⟩

theorem inRange_of_faultless (fits : Value.InRange first) (faultless : op.Faultless first rest) :
    Value.InRange (rest.foldl op.exact first) := by
  induction rest generalizing first with
  | nil => exact fits
  | cons b rest ih =>
    obtain ⟨here, later⟩ := faultless_cons.mp faultless
    have fits' : Value.InRange (op.exact first b) := by
      by_contra outside
      simp only [fault?, if_neg outside] at here
      split at here <;> cases here
    exact ih fits' later

/-- From a floating point number on nothing fails. -/
theorem fold_of_float (op : ArithmeticOp) (x : Binary64) {after : List Operand}
    (fits : ∀ o ∈ after, o.Fits) :
    ∃ y, op.fold (.float x :: after.map Operand.toValue) = .ok (.float y) := by
  obtain ⟨y, folded⟩ := op.foldlM_of_float fits x
  have folds := op.fold_toValue (.float x) after
  rw [folded] at folds
  exact ⟨y, folds⟩

theorem fold_of_int_float (op : ArithmeticOp) {n : Int} (x : Binary64) {after : List Operand}
    (start : Value.InRange n) (fits : ∀ o ∈ after, o.Fits) :
    ∃ y, op.fold (.int n :: .float x :: after.map Operand.toValue) = .ok (.float y) := by
  obtain ⟨y, stepped⟩ :=
    op.exists_step_eq (a := .int n) (b := .float x) start trivial fun _ _ => ⟨x, rfl⟩
  obtain ⟨z, folded⟩ := op.foldlM_of_float fits y
  have folds := op.fold_toValue (.int n) (.float x :: after)
  rw [List.foldlM_cons, stepped] at folds
  simp only [bind, Except.bind, folded] at folds
  exact ⟨z, folds⟩

theorem step_comm (commutes : op = .add ∨ op = .mul) (a b : Operand) :
    op.step b a = op.step a b := by
  have ints (m n : Int) : op.checkedInt n m = op.checkedInt m n := by
    rcases commutes with rfl | rfl
    · simp only [checkedInt, divides, onInt, Int.add_comm m n]
      rfl
    · simp only [checkedInt, divides, onInt, Int.mul_comm m n]
      rfl
  have floats (x y : Binary64) : op.onFloat y x = op.onFloat x y := by
    rcases commutes with rfl | rfl
    · simp only [onFloat, Binary64.add_comm x y]
    · simp only [onFloat, Binary64.mul_comm x y]
  cases a with
  | int m =>
    cases b with
    | int n => simp only [step, ints]
    | float y =>
      simp only [step, Operand.toFloat]
      cases widen m with
      | error e => rfl
      | ok x => simp only [bind, Except.bind, floats]
  | float x =>
    cases b with
    | int n =>
      simp only [step, Operand.toFloat]
      cases widen n with
      | error e => rfl
      | ok y => simp only [bind, Except.bind, floats]
    | float y => simp only [step, Operand.toFloat, bind, Except.bind, floats]

/-- Two numbers are added and multiplied in either order, and of a number and something else the
latter is the failure in either order. -/
theorem fold_comm (commutes : op = .add ∨ op = .mul) {a b : Value}
    (number : a.isNumber = true ∨ b.isNumber = true) : op.fold [b, a] = op.fold [a, b] := by
  have mixed {v w : Value} (isNumber : v.isNumber = true) (other : w.isNumber = false) :
      op.fold [w, v] = op.fold [v, w] :=
    (fold_of_not_number [] nofun other).trans
      (fold_of_not_number [v] (by simpa using isNumber) other).symm
  cases left : a.isNumber with
  | false => exact (mixed (by simpa [left] using number) left).symm
  | true =>
    cases right : b.isNumber with
    | false => exact mixed left right
    | true =>
      obtain ⟨x, rfl⟩ := exists_operand left
      obtain ⟨y, rfl⟩ := exists_operand right
      have folded (x y : Operand) :
          op.fold [x.toValue, y.toValue] = (op.step x y).map Operand.toValue := by
        refine (op.fold_toValue x [y]).trans ?_
        rw [List.foldlM_cons]
        cases op.step x y <;> rfl
      rw [folded, folded, step_comm commutes]

theorem fits_of_sound {o : Operand} {name : String → Prop} {frames : Nat}
    (sound : o.toValue.Sound name frames) : o.Fits := by
  cases o with
  | int n => exact sound.int_inRange
  | float x => trivial

theorem eq_of_operands {os : List Operand} (taken : op.operands args = .ok os) :
    args = os.map Operand.toValue := by
  induction args generalizing os with
  | nil =>
    cases taken
    rfl
  | cons v args ih =>
    rw [operands] at taken
    cases here : op.operand v with
    | error e =>
      rw [here] at taken
      cases taken
    | ok o =>
      cases later : op.operands args with
      | error e =>
        rw [here, later] at taken
        cases taken
      | ok os =>
        rw [here, later] at taken
        cases taken
        have same : v = o.toValue := by
          cases v <;> cases here <;> rfl
        rw [List.map_cons, ← same, ← ih later]

/-- What comes of a floating point number is one, with or without integers before it. -/
theorem float_of_fold {ints : List Int} {x : Binary64} {after : List Operand} {v : Value}
    (start : ∀ n ∈ ints.head?, Value.InRange n) (fits : ∀ o ∈ after, o.Fits)
    (folded : op.fold (ints.map Value.int ++ .float x :: after.map Operand.toValue) = .ok v) :
    ∃ y, v = .float y := by
  cases ints with
  | nil =>
    obtain ⟨y, computed⟩ := op.fold_of_float x fits
    exact ⟨y, Except.ok.inj (folded.symm.trans computed)⟩
  | cons first rest =>
    rcases op.faultless_or_firstFault first rest with faultless | ⟨p, fault⟩
    · obtain ⟨y, resumed⟩ := op.fold_of_int_float x
        (inRange_of_faultless (start first (by simp)) faultless) fits
      have computed := (fold_of_faultless faultless (.float x :: after)).trans resumed
      exact ⟨y, Except.ok.inj (folded.symm.trans computed)⟩
    · cases folded.symm.trans (fold_of_firstFault fault (.float x :: after))

/-- Integers alone give an integer, and a floating point number among them gives another. -/
theorem isInteger_fold {name : String → Prop} {frames : Nat} {v : Value}
    (nonempty : args ≠ []) (sound : ∀ v ∈ args, v.Sound name frames)
    (folded : op.fold args = .ok v) : v.isInteger = true ↔ ∀ w ∈ args, w.isInteger = true := by
  obtain ⟨os, taken⟩ : ∃ os, op.operands args = .ok os := by
    cases taken : op.operands args with
    | ok os => exact ⟨os, rfl⟩
    | error e =>
      rw [fold, taken] at folded
      cases folded
  obtain ⟨ints, after, leading, ends⟩ := exists_leading_ints os
  have parts : args = ints.map Value.int ++ after.map Operand.toValue := by
    rw [eq_of_operands taken, leading]
    simp [Operand.toValue]
  subst parts
  cases after with
  | nil =>
    cases ints with
    | nil => exact absurd rfl nonempty
    | cons first rest =>
      rw [List.map_nil, List.append_nil] at folded
      obtain ⟨_, rfl⟩ := fold_ints_eq_ok_iff.mp folded
      simp [Value.isInteger]
  | cons o after =>
    obtain ⟨x, rfl⟩ := ends o rfl
    have fits : ∀ o ∈ after, o.Fits := fun o member => fits_of_sound (sound o.toValue (by
      simp only [List.map_cons, List.mem_append, List.mem_cons]
      exact .inr (.inr (List.mem_map_of_mem member))))
    have start : ∀ n ∈ ints.head?, Value.InRange n := fun n head =>
      (sound (.int n) (by simp [List.mem_of_mem_head? head])).int_inRange
    obtain ⟨y, rfl⟩ := float_of_fold start fits folded
    exact ⟨nofun, fun each => each (.float x) (by simp [Operand.toValue])⟩

/-- A builtin for arithmetic is the exact left fold with a checked range. -/
theorem result_is_exact_left_fold (op : ArithmeticOp) {name : String → Prop} {frames : Nat}
    (enough : 2 ≤ args.length) (sound : ∀ v ∈ args, v.Sound name frames) :
    let result := (Primitive.arithmetic op).result
    (∀ before v after, args = before ++ v :: after → (∀ w ∈ before, w.isNumber = true) →
      v.isNumber = false → result args = .error (.wrongType op.name "number" v.typeName)) ∧
    (∀ first rest, args = (first :: rest).map Value.int →
      (∀ v, result args = .ok v ↔
        op.Faultless first rest ∧ v = .int (rest.foldl op.exact first)) ∧
      ∀ e, result args = .error e ↔ ∃ p, op.FirstFault first rest p ∧ e = .problem op.name p) ∧
    (∀ first rest x after, args = (first :: rest).map Value.int ++ .float x :: after →
      (∀ w ∈ after, w.isNumber = true) →
      (op.Faultless first rest →
        ∃ y, result args = .ok (.float y) ∧
          result (.int (rest.foldl op.exact first) :: .float x :: after) = .ok (.float y)) ∧
      ∀ e, result args = .error e ↔ ∃ p, op.FirstFault first rest p ∧ e = .problem op.name p) ∧
    (∀ x after, args = .float x :: after → (∀ w ∈ after, w.isNumber = true) →
      ∃ y, result args = .ok (.float y)) ∧
    (∀ v, result args = .ok v → (v.isInteger = true ↔ ∀ w ∈ args, w.isInteger = true)) ∧
    (op = .add ∨ op = .mul → ∀ a b, args = [a, b] → (a.isNumber = true ∨ b.isNumber = true) →
      result [b, a] = result args) := by
  intro result
  refine ⟨?mistyped, ?integers, ?mixed, ?float, ?kind, ?commutes⟩
  case mistyped =>
    rintro before v after rfl numbers other
    have named := (sound v (by simp)).typeName?_eq
    refine (fold_of_not_number before numbers other).trans ?_
    simp only [EvalError.mistyped, named]
  case integers =>
    rintro first rest rfl
    refine ⟨fun v => fold_ints_eq_ok_iff, fun e => ?_⟩
    rw [← List.append_nil ((first :: rest).map Value.int)]
    exact fold_eq_error_iff [] fun _ => ⟨_, rfl⟩
  case mixed =>
    rintro first rest x after rfl numbers
    obtain ⟨os, rfl⟩ := exists_operands numbers
    have fits : ∀ o ∈ os, o.Fits := fun o member => fits_of_sound (sound o.toValue (by
      simp only [List.mem_append, List.mem_cons]
      exact .inr (.inr (List.mem_map_of_mem member))))
    have start : Value.InRange first := (sound (.int first) (by simp)).int_inRange
    have resumes (faultless : op.Faultless first rest) :=
      op.fold_of_int_float x (inRange_of_faultless start faultless) fits
    constructor
    · intro faultless
      obtain ⟨y, resumed⟩ := resumes faultless
      exact ⟨y, (fold_of_faultless faultless (.float x :: os)).trans resumed, resumed⟩
    · intro e
      refine fold_eq_error_iff (.float x :: os) fun faultless => ?_
      obtain ⟨y, resumed⟩ := resumes faultless
      exact ⟨_, resumed⟩
  case float =>
    rintro x after rfl numbers
    obtain ⟨os, rfl⟩ := exists_operands numbers
    exact op.fold_of_float x fun o member =>
      fits_of_sound (sound o.toValue (List.mem_cons_of_mem _ (List.mem_map_of_mem member)))
  case kind =>
    have nonempty : args ≠ [] := by
      rintro rfl
      simp at enough
    exact fun v => isInteger_fold nonempty sound
  case commutes =>
    rintro commutes a b rfl number
    exact fold_comm commutes number

/-- A sum that leaves the range on the way fails, even where the last number would bring it back. -/
theorem passing_overflow_fails :
    2 ≤ [Value.int Value.greatestInt, .int 1, .int (-1)].length ∧
      (∀ v ∈ [Value.int Value.greatestInt, .int 1, .int (-1)], v.Sound (fun _ => True) 0) ∧
      (Primitive.arithmetic .add).result [.int Value.greatestInt, .int 1, .int (-1)] =
        .error (.problem "+" .integerOverflow) := by
  have enough : 2 ≤ [Value.int Value.greatestInt, .int 1, .int (-1)].length := by decide
  have sound : ∀ v ∈ [Value.int Value.greatestInt, .int 1, .int (-1)],
      v.Sound (fun _ => True) 0 := by
    simp only [List.forall_mem_cons]
    exact ⟨.int (by decide), .int (by decide), .int (by decide), nofun⟩
  have overflows : add.FirstFault Value.greatestInt [1, -1] .integerOverflow :=
    firstFault_cons.mpr (.inl (by decide))
  obtain ⟨-, integers, -⟩ := add.result_is_exact_left_fold enough sound
  exact ⟨enough, sound, ((integers Value.greatestInt [1, -1] rfl).2 _).mpr ⟨_, overflows, rfl⟩⟩

end ArithmeticOp

end SmallLisp
