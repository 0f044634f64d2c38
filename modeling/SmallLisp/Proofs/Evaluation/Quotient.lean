import Mathlib.Data.Rat.Floor
import SmallLisp.Proofs.Evaluation.ExactArithmetic

/-! Quotients and remainders of integers. A quotient is rounded toward zero, the remainder is what
that leaves of the dividend, and of the two only the quotient can leave the range. -/
namespace SmallLisp.ArithmeticOp

variable {op : ArithmeticOp}

/-- The quotient that is formed is the exact one rounded toward zero. -/
theorem tdiv_eq_rounded (a b : Int) :
    a.tdiv b = if 0 ≤ (a : ℚ) / b then ⌊(a : ℚ) / b⌋ else ⌈(a : ℚ) / b⌉ := by
  have natural (n : Int) (d : Nat) :
      n.tdiv d = if 0 ≤ (n : ℚ) / d then ⌊(n : ℚ) / d⌋ else ⌈(n : ℚ) / d⌉ := by
    rcases Nat.eq_zero_or_pos d with rfl | positive
    · simp
    · have positive' : (0 : ℚ) < d := by exact_mod_cast positive
      by_cases sign : 0 ≤ n
      · have sign' : 0 ≤ (n : ℚ) / d := div_nonneg (by exact_mod_cast sign) positive'.le
        rw [if_pos sign', Rat.floor_intCast_div_natCast, Int.tdiv_eq_ediv_of_nonneg sign]
      · have sign' : ¬ 0 ≤ (n : ℚ) / d := by
          rw [not_le]
          exact div_neg_of_neg_of_pos (by exact_mod_cast Int.not_le.mp sign) positive'
        have opposite : 0 ≤ -n := by omega
        calc n.tdiv d = -((-n).tdiv d) := by rw [Int.neg_tdiv, Int.neg_neg]
          _ = -⌊((-n : Int) : ℚ) / d⌋ := by
            rw [Rat.floor_intCast_div_natCast, Int.tdiv_eq_ediv_of_nonneg opposite]
          _ = ⌈(n : ℚ) / d⌉ := by rw [← Int.ceil_neg, Int.cast_neg, neg_div, neg_neg]
          _ = _ := (if_neg sign').symm
  obtain ⟨d, rfl | rfl⟩ := b.eq_nat_or_neg
  · simpa using natural a d
  · have flipped := natural (-a) d
    rw [Int.neg_tdiv] at flipped
    rw [Int.tdiv_neg, flipped]
    simp only [Int.cast_neg, Int.cast_natCast, neg_div, div_neg]

theorem result_ints (op : ArithmeticOp) (a b : Int) :
    (Primitive.arithmetic op).result [.int a, .int b] = match op.fault? a b with
      | some p => .error (.problem op.name p)
      | none => .ok (.int (op.exact a b)) := by
  refine (op.fold_toValue (.int a) [.int b]).trans ?_
  rw [List.foldlM_cons, step, checkedInt_eq]
  cases op.fault? a b <;> rfl

theorem result_of_inRange {a b : Int} (nonzero : b ≠ 0) (fits : Value.InRange (op.exact a b)) :
    (Primitive.arithmetic op).result [.int a, .int b] = .ok (.int (op.exact a b)) := by
  have faultless : op.fault? a b = none := by
    rw [fault?, if_neg fun zero => nonzero zero.2, if_pos fits]
  rw [result_ints, faultless]

theorem quotient_eq {a b : Int} (dividend : Value.InRange a) (nonzero : b ≠ 0)
    (apart : ¬(a = Value.leastInt ∧ b = -1)) :
    (Primitive.arithmetic .div).result [.int a, .int b] = .ok (.int (a.tdiv b)) := by
  refine result_of_inRange nonzero ?_
  change Value.InRange (a.tdiv b)
  have large := dividend.natAbs_le
  simp only [Value.InRange, Value.leastInt, Value.greatestInt] at dividend apart ⊢
  by_cases unit : b.natAbs = 1
  · -- a unit keeps the size, and the one that turns the sign is apart from the least integer
    obtain rfl | rfl : b = 1 ∨ b = -1 := by omega
    · rwa [Int.tdiv_one]
    · rw [Int.tdiv_neg, Int.tdiv_one]
      omega
  · have size : (a.tdiv b).natAbs ≤ a.natAbs / 2 := by
      have two : 2 ≤ b.natAbs := by omega
      exact (Int.natAbs_tdiv a b).trans_le (Nat.div_le_div_left two Nat.two_pos)
    omega

theorem natAbs_tmod_lt (a : Int) {b : Int} (nonzero : b ≠ 0) : (a.tmod b).natAbs < b.natAbs := by
  rw [Int.natAbs_tmod]
  exact Nat.mod_lt _ (Int.natAbs_pos.mpr nonzero)

/-- A remainder is within the range of its divisor. -/
theorem remainder_eq (a : Int) {b : Int} (divisor : Value.InRange b) (nonzero : b ≠ 0) :
    (Primitive.arithmetic .modulo).result [.int a, .int b] = .ok (.int (a.tmod b)) := by
  refine result_of_inRange nonzero ?_
  have smaller := natAbs_tmod_lt a nonzero
  have bound := divisor.natAbs_le
  simp only [exact, Value.InRange, Value.leastInt, Value.greatestInt]
  omega

/-- Quotient and remainder of two integers, at every sign and limit. -/
theorem quotient_and_remainder_fit {a b : Int} (dividend : Value.InRange a)
    (divisor : Value.InRange b) :
    let quotient (a b : Int) := (Primitive.arithmetic .div).result [.int a, .int b]
    let remainder (a b : Int) := (Primitive.arithmetic .modulo).result [.int a, .int b]
    (b = 0 → quotient a b = .error (.problem "/" .divisionByZero) ∧
      remainder a b = .error (.problem "modulo" .divisionByZero)) ∧
    (b ≠ 0 → ∃ r, remainder a b = .ok (.int r) ∧
      (a = Value.leastInt ∧ b = -1 → quotient a b = .error (.problem "/" .integerOverflow)) ∧
      (¬(a = Value.leastInt ∧ b = -1) → ∃ q, quotient a b = .ok (.int q) ∧
        a = b * q + r ∧ |r| < |b| ∧ (r = 0 ∨ r.sign = a.sign) ∧
        (q = if 0 ≤ (a : ℚ) / b then ⌊(a : ℚ) / b⌋ else ⌈(a : ℚ) / b⌉) ∧
        (Value.InRange (-a) →
          quotient (-a) b = .ok (.int (-q)) ∧ remainder (-a) b = .ok (.int (-r))) ∧
        (Value.InRange (-b) → remainder a (-b) = .ok (.int r)))) := by
  intro quotient remainder
  refine ⟨?byZero, fun nonzero => ⟨a.tmod b, remainder_eq a divisor nonzero, ?least, ?others⟩⟩
  case byZero =>
    rintro rfl
    exact ⟨result_ints .div a 0, result_ints .modulo a 0⟩
  case least =>
    rintro ⟨rfl, rfl⟩
    exact result_ints .div Value.leastInt (-1)
  case others =>
    intro apart
    refine ⟨a.tdiv b, quotient_eq dividend nonzero apart, (Int.mul_tdiv_add_tmod a b).symm,
      ?_, ?_, tdiv_eq_rounded a b, fun opposite => ⟨?_, ?_⟩, fun opposite => ?_⟩
    · have smaller := natAbs_tmod_lt a nonzero
      rw [← Int.natCast_natAbs, ← Int.natCast_natAbs]
      exact_mod_cast smaller
    · by_cases exact' : b ∣ a
      · exact .inl (Int.tmod_eq_zero_of_dvd exact')
      · exact .inr (by rw [Int.sign_tmod, if_neg exact'])
    · have apart' : ¬(-a = Value.leastInt ∧ b = -1) := by
        rintro ⟨least, -⟩
        simp only [Value.InRange, Value.leastInt, Value.greatestInt] at dividend least
        omega
      rw [← Int.neg_tdiv]
      exact quotient_eq opposite nonzero apart'
    · rw [← Int.neg_tmod]
      exact remainder_eq (-a) divisor nonzero
    · rw [← Int.tmod_neg]
      exact remainder_eq a opposite (Int.neg_ne_zero.mpr nonzero)

/-- The least integer has a remainder by minus one, though no quotient. -/
theorem least_by_minus_one :
    Value.InRange Value.leastInt ∧ Value.InRange (-1) ∧
      (Primitive.arithmetic .modulo).result [.int Value.leastInt, .int (-1)] = .ok (.int 0) ∧
      (Primitive.arithmetic .div).result [.int Value.leastInt, .int (-1)] =
        .error (.problem "/" .integerOverflow) := by
  have dividend : Value.InRange Value.leastInt := by decide
  have divisor : Value.InRange (-1) := by decide
  obtain ⟨r, computed, overflows, -⟩ :=
    (quotient_and_remainder_fit dividend divisor).2 (by decide)
  have zero := (remainder_eq Value.leastInt divisor (by decide)).symm.trans computed
  exact ⟨dividend, divisor, computed.trans zero.symm, overflows ⟨rfl, rfl⟩⟩

end SmallLisp.ArithmeticOp
