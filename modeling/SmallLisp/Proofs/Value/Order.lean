import SmallLisp.Evaluation.Primitive
import SmallLisp.Proofs.Number.Monotone
import SmallLisp.Proofs.Value.Equality

/-! Order of values. Integers are compared as they are, and mixed numbers by their ranks among
the floating point numbers. Widening keeps the order but may make different integers equal, so
neither equality nor `<=` is transitive; `<` is, since one of two comparisons that a chain
mixes is strict between ranks. -/
namespace SmallLisp

namespace Binary64

theorem order?_eq (x y : Binary64) :
    x.order? y = x.rank?.bind fun i => y.rank?.map fun j => compare i j := by
  rw [order?]
  cases x.rank? <;> cases y.rank? <;> rfl

theorem equal_iff_order? (x y : Binary64) : x.equal y = true ↔ x.order? y = some .eq := by
  rw [order?, equal]
  cases x.rank? <;> cases y.rank? <;> simp

end Binary64

namespace Value

/-- The rank of a number among the floating point numbers. -/
def rank? : Value → Option Int
  | .int n => some (Binary64.widenedRank n)
  | .float x => x.rank?
  | _ => none

theorem rank?_eq_none_iff (a : Value) :
    a.rank? = none ↔ ¬ a.isNumber = true ∨ a = .float .nan := by
  cases a with
  | float x => simp [rank?, isNumber, Binary64.rank?_eq_none_iff]
  | _ => simp [rank?, isNumber]

theorem order?_int (m n : Int) : (int m).order? (int n) = some (compare m n) := rfl

theorem order?_eq_of_mixed {a b : Value} (mixed : ¬ (a.isInteger = true ∧ b.isInteger = true)) :
    a.order? b = a.rank?.bind fun i => b.rank?.map fun j => compare i j := by
  cases a with
  | int m =>
    cases b with
    | int n => exact absurd ⟨rfl, rfl⟩ mixed
    | float y => rw [order?, Binary64.order?_eq, Binary64.rank?_ofInt, rank?, rank?]
    | _ => rfl
  | float x =>
    cases b with
    | int n => rw [order?, Binary64.order?_eq, Binary64.rank?_ofInt, rank?, rank?]
    | float y => rw [order?, Binary64.order?_eq, rank?, rank?]
    | _ => cases same : x.rank? <;> simp [order?, rank?, same]
  | _ => cases b <;> rfl

theorem integers_or_mixed (a b : Value) :
    (∃ m n, a = .int m ∧ b = .int n) ∨ ¬ (a.isInteger = true ∧ b.isInteger = true) := by
  cases a <;> cases b <;> simp [isInteger]

theorem order?_eq_none_iff (a b : Value) :
    a.order? b = none ↔ ¬ (a.isNumber = true ∧ b.isNumber = true) ∨
      a = .float .nan ∨ b = .float .nan := by
  have ranks : a.order? b = none ↔ a.rank? = none ∨ b.rank? = none := by
    rcases integers_or_mixed a b with ⟨m, n, rfl, rfl⟩ | mixed
    · simp [order?_int, rank?]
    · rw [order?_eq_of_mixed mixed]
      cases a.rank? <;> cases b.rank? <;> simp
  rw [ranks, rank?_eq_none_iff, rank?_eq_none_iff]
  tauto

theorem order?_swap (a b : Value) : b.order? a = (a.order? b).map Ordering.swap := by
  rcases integers_or_mixed a b with ⟨m, n, rfl, rfl⟩ | mixed
  · simp [order?_int, Int.compare_swap]
  · rw [order?_eq_of_mixed mixed, order?_eq_of_mixed (mt And.symm mixed)]
    cases a.rank? <;> cases b.rank? <;> simp [Int.compare_swap]

theorem equal_iff_order? {a b : Value} (numbers : a.isNumber = true ∧ b.isNumber = true) :
    a.equal b = true ↔ a.order? b = some .eq := by
  obtain ⟨number, number'⟩ := numbers
  cases a with
  | int m =>
    cases b with
    | int n => simp [equal, order?]
    | float y => rw [equal, order?, Binary64.equal_iff_order?]
    | _ => cases number'
  | float x =>
    cases b with
    | int n => rw [equal, order?, Binary64.equal_iff_order?]
    | float y => rw [equal, order?, Binary64.equal_iff_order?]
    | _ => cases number'
  | _ => cases number

theorem numbers_of_order? {a b : Value} {o : Ordering} (known : a.order? b = some o) :
    a.isNumber = true ∧ b.isNumber = true := by
  by_contra other
  have unordered := (order?_eq_none_iff a b).mpr (.inl other)
  rw [known] at unordered
  cases unordered

theorem order?_eq_lt_iff {a b : Value} (mixed : ¬ (a.isInteger = true ∧ b.isInteger = true)) :
    a.order? b = some .lt ↔ ∃ i j, a.rank? = some i ∧ b.rank? = some j ∧ i < j := by
  rw [order?_eq_of_mixed mixed]
  cases a.rank? <;> cases b.rank? <;> simp [Int.compare_eq_lt]

theorem rank?_le_of_lt {a b : Value} (less : a.order? b = some .lt) :
    ∃ i j, a.rank? = some i ∧ b.rank? = some j ∧ i ≤ j := by
  rcases integers_or_mixed a b with ⟨m, n, rfl, rfl⟩ | mixed
  · have lt : m < n := by simpa [order?_int, Int.compare_eq_lt] using less
    exact ⟨_, _, rfl, rfl, Binary64.widenedRank_mono (Int.le_of_lt lt)⟩
  · obtain ⟨i, j, rank, rank', lt⟩ := (order?_eq_lt_iff mixed).mp less
    exact ⟨i, j, rank, rank', Int.le_of_lt lt⟩

/-- A chain that begins or ends with anything but an integer has a comparison that is strict
between ranks. -/
theorem rank?_lt_of_lt {a b c : Value} (mixed : ¬ (a.isInteger = true ∧ b.isInteger = true ∧
    c.isInteger = true)) (first : a.order? b = some .lt) (second : b.order? c = some .lt) :
    ∃ i k, a.rank? = some i ∧ c.rank? = some k ∧ i < k := by
  obtain ⟨i, j, rank, rank', le⟩ := rank?_le_of_lt first
  obtain ⟨j', k, again, rank'', le'⟩ := rank?_le_of_lt second
  obtain rfl : j = j' := Option.some.inj (rank'.symm.trans again)
  refine ⟨i, k, rank, rank'', ?_⟩
  by_cases integers : a.isInteger = true ∧ b.isInteger = true
  · have later : ¬ (b.isInteger = true ∧ c.isInteger = true) := by tauto
    obtain ⟨_, _, known, known', lt⟩ := (order?_eq_lt_iff later).mp second
    rw [rank'] at known
    rw [rank''] at known'
    cases known
    cases known'
    exact Int.lt_of_le_of_lt le lt
  · obtain ⟨_, _, known, known', lt⟩ := (order?_eq_lt_iff integers).mp first
    rw [rank] at known
    rw [rank'] at known'
    cases known
    cases known'
    exact Int.lt_of_lt_of_le lt le'

/-- Integers whose ranks increase are in the same order. -/
theorem order?_trans {a b c : Value} (first : a.order? b = some .lt)
    (second : b.order? c = some .lt) : a.order? c = some .lt := by
  by_cases integers : a.isInteger = true ∧ b.isInteger = true ∧ c.isInteger = true
  · obtain ⟨integer, integer', integer''⟩ := integers
    cases a with
    | int l =>
      cases b with
      | int m =>
        cases c with
        | int n =>
          simp only [order?_int, Option.some.injEq, Int.compare_eq_lt] at *
          omega
        | _ => cases integer''
      | _ => cases integer'
    | _ => cases integer
  · obtain ⟨i, k, rank, rank', lt⟩ := rank?_lt_of_lt integers first second
    rcases integers_or_mixed a c with ⟨m, n, rfl, rfl⟩ | mixed
    · cases rank
      cases rank'
      have less : m < n := by
        by_contra ge
        have := Binary64.widenedRank_mono (Int.not_lt.mp ge)
        omega
      rw [order?_int, Int.compare_eq_lt.mpr less]
    · exact (order?_eq_lt_iff mixed).mpr ⟨i, k, rank, rank', lt⟩

end Value

namespace Primitive

/-- The procedure says that the operands are so related. -/
def Answers (p : Primitive) (a b : Value) : Prop := p.result [a, b] = .ok (.bool true)

variable {a b c : Value}

/-- There is always room to compare numbers. -/
theorem answers_equal_of_numbers (numbers : a.isNumber = true ∧ b.isNumber = true) :
    equal.Answers a b ↔ a.equal b = true := by
  have flat : a.equalDepth b = 0 := by
    have number := numbers.1
    cases a <;> cases b <;> first | rfl | cases number
  have room : a.Comparable b := by
    rw [Value.Comparable, flat]
    exact Nat.zero_le _
  simp [Answers, result, Value.equal?, room]

theorem answers_order (op : OrderOp) : (order op).Answers a b ↔ op.holds (a.order? b) = true := by
  simp [Answers, result]

theorem answers_lt : (order .lt).Answers a b ↔ a.order? b = some .lt := by
  rw [answers_order]
  cases a.order? b <;> simp [OrderOp.holds]

theorem answers_gt : (order .gt).Answers a b ↔ a.order? b = some .gt := by
  rw [answers_order]
  cases a.order? b <;> simp [OrderOp.holds]

/-- Strings are equal to themselves and yet in no order. -/
theorem order?_eq_eq_iff : a.order? b = some .eq ↔
    (a.isNumber = true ∧ b.isNumber = true) ∧ equal.Answers a b := by
  constructor
  · intro known
    have numbers := Value.numbers_of_order? known
    have same := (Value.equal_iff_order? numbers).mpr known
    exact ⟨numbers, (answers_equal_of_numbers numbers).mpr same⟩
  · rintro ⟨numbers, same⟩
    exact (Value.equal_iff_order? numbers).mp ((answers_equal_of_numbers numbers).mp same)

theorem answers_le : (order .le).Answers a b ↔
    (order .lt).Answers a b ∨ (a.isNumber = true ∧ b.isNumber = true) ∧ equal.Answers a b := by
  rw [answers_lt, ← order?_eq_eq_iff, answers_order]
  cases a.order? b with
  | none => simp [OrderOp.holds]
  | some o => cases o <;> simp [OrderOp.holds]

theorem answers_ge : (order .ge).Answers a b ↔
    (order .gt).Answers a b ∨ (a.isNumber = true ∧ b.isNumber = true) ∧ equal.Answers a b := by
  rw [answers_gt, ← order?_eq_eq_iff, answers_order]
  cases a.order? b with
  | none => simp [OrderOp.holds]
  | some o => cases o <;> simp [OrderOp.holds]

theorem not_answers_equal {o : Ordering} (known : a.order? b = some o) (strict : o ≠ .eq) :
    ¬ equal.Answers a b := by
  intro same
  have level := order?_eq_eq_iff.mpr ⟨Value.numbers_of_order? known, same⟩
  exact strict (Option.some.inj (known.symm.trans level))

end Primitive

/-- Only numbers are ordered, and not-a-number is not. The order is the opposite one the other
way round, it agrees with equality, and `<` is transitive whatever numbers are mixed. -/
theorem Primitive.order_is_lawful :
    (∀ a b : Value, a.order? b = none ↔
      ¬ (a.isNumber = true ∧ b.isNumber = true) ∨ a = .float .nan ∨ b = .float .nan) ∧
    (∀ a b : Value, b.order? a = (a.order? b).map Ordering.swap) ∧
    (∀ a b : Value, a.order? b ≠ none → (a.order? b = some .eq ↔ a.equal b = true)) ∧
    (∀ a b c : Value, (order .lt).Answers a b → (order .lt).Answers b c →
      (order .lt).Answers a c) ∧
    (∀ a b : Value, ((order .le).Answers a b ↔ (order .lt).Answers a b ∨
        (a.isNumber = true ∧ b.isNumber = true) ∧ equal.Answers a b) ∧
      ((order .ge).Answers a b ↔ (order .gt).Answers a b ∨
        (a.isNumber = true ∧ b.isNumber = true) ∧ equal.Answers a b)) ∧
    (∀ a b : Value, ¬ ((order .lt).Answers a b ∧ equal.Answers a b) ∧
      ¬ ((order .lt).Answers a b ∧ (order .gt).Answers a b) ∧
      ¬ (equal.Answers a b ∧ (order .gt).Answers a b)) := by
  refine ⟨Value.order?_eq_none_iff, Value.order?_swap, ?_, ?_, ?_, ?_⟩
  · intro a b known
    obtain ⟨o, known⟩ := Option.ne_none_iff_exists'.mp known
    exact (Value.equal_iff_order? (Value.numbers_of_order? known)).symm
  · intro a b c
    simp only [answers_lt]
    exact Value.order?_trans
  · intro a b
    exact ⟨answers_le, answers_ge⟩
  · intro a b
    simp only [answers_lt, answers_gt]
    refine ⟨?_, ?_, ?_⟩
    · rintro ⟨less, same⟩
      exact not_answers_equal less (by decide) same
    · rintro ⟨less, greater⟩
      rw [less] at greater
      cases greater
    · rintro ⟨same, greater⟩
      exact not_answers_equal greater (by decide) same

/-- The last integer widens to a number that is greater by one. -/
theorem Primitive.order_is_lawful_beyond_exact_integers :
    (Value.int 9007199254740992).order? (.int 9007199254740995) ≠ none ∧
    (order .lt).Answers (.int 9007199254740992) (.float (.ofInt 9007199254740994)) ∧
    (order .lt).Answers (.float (.ofInt 9007199254740994)) (.int 9007199254740995) ∧
    (order .lt).Answers (.int 9007199254740992) (.int 9007199254740995) ∧
    ¬ equal.Answers (.int 9007199254740992) (.int 9007199254740995) := by
  obtain ⟨-, -, -, chain, -, apart⟩ := Primitive.order_is_lawful
  have known : (Value.int 9007199254740992).order? (.int 9007199254740995) ≠ none := by decide
  have first : (order .lt).Answers (.int 9007199254740992) (.float (.ofInt 9007199254740994)) :=
    answers_lt.mpr (by decide +kernel)
  have second : (order .lt).Answers (.float (.ofInt 9007199254740994)) (.int 9007199254740995) :=
    answers_lt.mpr (by decide +kernel)
  have less := chain _ _ _ first second
  exact ⟨known, first, second, less, fun same => (apart _ _).1 ⟨less, same⟩⟩

end SmallLisp
