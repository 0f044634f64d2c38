import Mathlib.Tactic.Linarith
import Mathlib.Tactic.Positivity
import Mathlib.Tactic.Ring
import SmallLisp.Number.Binary64

/-! Rounding to the nearest number. What rounding gives is a multiple of its own spacing, so
it is a number unless it is too large, and it depends on the quotient alone. -/
namespace SmallLisp.Binary64

theorem spacing_eq (n : Nat) : spacing n = 2 ^ (n.log2 - 52) := Nat.pow_eq

theorem spacing_pos (n : Nat) : 0 < spacing n := by
  rw [spacing_eq]
  positivity

theorem magnitude_iff (n : Nat) : Magnitude n ↔ n < Nat.pow 2 2098 ∧ spacing n ∣ n :=
  and_congr Iff.rfl (Nat.dvd_iff_mod_eq_zero ..).symm

theorem div_le_nearest (num den : Nat) : num / den ≤ nearest num den := by
  simp only [nearest]
  split <;> omega

theorem nearest_le (num den : Nat) : nearest num den ≤ num / den + 1 := by
  simp only [nearest]
  split <;> omega

theorem nearest_mul_left {den : Nat} (positive : 0 < den) (n : Nat) :
    nearest (n * den) den = n := by
  simp [nearest, positive]

theorem nearest_scale {k : Nat} (positive : 0 < k) (num den : Nat) :
    nearest (k * num) (k * den) = nearest num den := by
  have same : k * num / (k * den) = num / den := Nat.mul_div_mul_left num den positive
  have rest : k * num % (k * den) = k * (num % den) := Nat.mul_mod_mul_left k num den
  have twice : 2 * (k * (num % den)) = k * (2 * (num % den)) := by ring
  simp only [nearest, same, rest, twice]
  simp only [Nat.mul_lt_mul_left positive, Nat.mul_right_inj (Nat.ne_of_gt positive)]

/-- Fifty-three bits hold the multiple of the spacing below a count of units. -/
theorem div_spacing_lt (n : Nat) : n / spacing n < 2 ^ 53 := by
  rw [Nat.div_lt_iff_lt_mul (spacing_pos n), spacing_eq, ← Nat.pow_add]
  calc n < 2 ^ (n.log2 + 1) := Nat.lt_log2_self
    _ ≤ 2 ^ (53 + (n.log2 - 52)) := Nat.pow_le_pow_right (by omega) (by omega)

theorem le_div_spacing {n : Nat} (large : 52 ≤ n.log2) : 2 ^ 52 ≤ n / spacing n := by
  have positive : n ≠ 0 := by
    rintro rfl
    simp at large
  rw [Nat.le_div_iff_mul_le (spacing_pos n), spacing_eq, ← Nat.pow_add]
  calc 2 ^ (52 + (n.log2 - 52)) = 2 ^ n.log2 := by congr 1; omega
    _ ≤ n := Nat.log2_self_le positive

theorem spacing_le {n : Nat} (positive : 0 < n) : spacing n ≤ n := by
  rw [spacing_eq]
  calc 2 ^ (n.log2 - 52) ≤ 2 ^ n.log2 := Nat.pow_le_pow_right (by omega) (by omega)
    _ ≤ n := Nat.log2_self_le (Nat.ne_of_gt positive)

/-- A significand of at most 53 bits, which uses all of them where the step is more than one
unit, makes a multiple of the product's own spacing. The greatest is a power of two, whose
spacing is twice the step. -/
theorem spacing_dvd {k e : Nat} (small : k ≤ 2 ^ 53) (full : e = 0 ∨ 2 ^ 52 ≤ k) :
    spacing (k * 2 ^ e) ∣ k * 2 ^ e := by
  rcases Nat.eq_zero_or_pos k with rfl | positive
  · simp
  have nonzero : k * 2 ^ e ≠ 0 := by positivity
  rw [spacing_eq]
  rcases Nat.lt_or_ge k (2 ^ 53) with smaller | greatest
  · -- the spacing is at most the step
    have bits : (k * 2 ^ e).log2 < 53 + e := by
      rw [Nat.log2_lt nonzero, Nat.pow_add]
      exact Nat.mul_lt_mul_of_pos_right smaller (by positivity)
    have : 2 ^ ((k * 2 ^ e).log2 - 52) ∣ 2 ^ e := Nat.pow_dvd_pow 2 (by omega)
    exact Dvd.dvd.mul_left this k
  · have top : k = 2 ^ 53 := by omega
    rw [top, ← Nat.pow_add, Nat.log2_two_pow]
    exact Nat.pow_dvd_pow 2 (by omega)

/-- The units that rounding gives. -/
def rounded (num den : Nat) : Nat :=
  nearest num (den * spacing (num / den)) * spacing (num / den)

theorem round_eq (negative : Bool) (num den : Nat) :
    round negative num den = ofUnits negative (rounded num den) := rfl

theorem spacing_dvd_rounded (num den : Nat) : spacing (rounded num den) ∣ rounded num den := by
  have quotient : num / (den * spacing (num / den)) = num / den / spacing (num / den) :=
    (Nat.div_div_eq_div_mul ..).symm
  have small : nearest num (den * spacing (num / den)) ≤ 2 ^ 53 := by
    have := nearest_le num (den * spacing (num / den))
    have := div_spacing_lt (num / den)
    omega
  have full : (num / den).log2 - 52 = 0 ∨ 2 ^ 52 ≤ nearest num (den * spacing (num / den)) := by
    rcases Nat.lt_or_ge (num / den).log2 52 with short | long
    · exact .inl (by omega)
    · have := div_le_nearest num (den * spacing (num / den))
      have := le_div_spacing long
      exact .inr (by omega)
  simp only [rounded]
  rw [spacing_eq (num / den)] at small full ⊢
  exact spacing_dvd small full

theorem rounded_le (num den : Nat) : rounded num den ≤ 2 * (num / den) + 1 := by
  have quotient : num / (den * spacing (num / den)) = num / den / spacing (num / den) :=
    (Nat.div_div_eq_div_mul ..).symm
  have upper := nearest_le num (den * spacing (num / den))
  have product := Nat.div_mul_le_self (num / den) (spacing (num / den))
  have step : spacing (num / den) ≤ num / den + 1 := by
    rcases Nat.eq_zero_or_pos (num / den) with zero | positive
    · rw [zero]
      decide
    · exact Nat.le_succ_of_le (spacing_le positive)
  simp only [rounded]
  rw [quotient] at upper
  calc nearest num (den * spacing (num / den)) * spacing (num / den)
      ≤ (num / den / spacing (num / den) + 1) * spacing (num / den) :=
        Nat.mul_le_mul_right _ upper
    _ = num / den / spacing (num / den) * spacing (num / den) + spacing (num / den) := by ring
    _ ≤ 2 * (num / den) + 1 := by omega

/-- Rounding gives a number unless it gives too many units. -/
theorem magnitude_rounded {num den : Nat} (bounded : rounded num den < Nat.pow 2 2098) :
    Magnitude (rounded num den) :=
  (magnitude_iff _).mpr ⟨bounded, spacing_dvd_rounded num den⟩

theorem round_eq_finite {num den : Nat} (bounded : rounded num den < Nat.pow 2 2098)
    (negative : Bool) :
    round negative num den = .finite negative (rounded num den) (magnitude_rounded bounded) := by
  rw [round_eq, ofUnits, dif_pos (magnitude_rounded bounded)]

/-- Only the quotient counts. -/
theorem rounded_scale {k : Nat} (positive : 0 < k) (num den : Nat) :
    rounded (k * num) (k * den) = rounded num den := by
  simp only [rounded]
  rw [Nat.mul_div_mul_left num den positive, Nat.mul_assoc, nearest_scale positive]

theorem rounded_exact {n : Nat} (exact : spacing n ∣ n) : rounded n 1 = n := by
  obtain ⟨k, product⟩ := exact
  simp only [rounded]
  rw [Nat.div_one, Nat.one_mul]
  have multiple : n = k * spacing n := by rw [Nat.mul_comm]; exact product
  have same : nearest n (spacing n) = k := by
    have := nearest_mul_left (spacing_pos n) k
    rwa [← multiple] at this
  rw [same]
  exact multiple.symm

/-- Less than half a unit is rounded away. -/
theorem rounded_eq_zero {num den : Nat} (small : 2 * num < den) : rounded num den = 0 := by
  have quotient : num / den = 0 := Nat.div_eq_of_lt (by omega)
  have step : spacing 0 = 1 := by decide
  have rest : num % den = num := Nat.mod_eq_of_lt (by omega)
  simp only [rounded]
  rw [quotient, step, Nat.mul_one, Nat.mul_one]
  simp only [nearest, quotient, rest]
  rw [if_pos (.inl small)]

theorem le_rounded (num den : Nat) : num / den ≤ 2 * rounded num den := by
  have quotient : num / (den * spacing (num / den)) = num / den / spacing (num / den) :=
    (Nat.div_div_eq_div_mul ..).symm
  have lower := div_le_nearest num (den * spacing (num / den))
  rcases Nat.eq_zero_or_pos (num / den) with zero | positive
  · omega
  · have some : 1 ≤ num / den / spacing (num / den) :=
      (Nat.one_le_div_iff (spacing_pos _)).mpr (spacing_le positive)
    have whole := Nat.div_add_mod (num / den) (spacing (num / den))
    have rest := Nat.mod_lt (num / den) (spacing_pos (num / den))
    have one_step := Nat.mul_le_mul_left (spacing (num / den)) some
    have kept : num / den / spacing (num / den) * spacing (num / den) ≤ rounded num den := by
      simp only [rounded]
      rw [← quotient]
      exact Nat.mul_le_mul_right _ lower
    rw [Nat.mul_comm] at kept
    omega

theorem round_scale {k : Nat} (positive : 0 < k) (negative : Bool) (num den : Nat) :
    round negative (k * num) (k * den) = round negative num den := by
  rw [round_eq, round_eq, rounded_scale positive]

/-- The sign has no part in the rounding. -/
theorem round_eq_finite_of_round {num den n : Nat} {s : Bool} {exact : Magnitude n}
    (known : round s num den = .finite s n exact) (t : Bool) :
    round t num den = .finite t n exact := by
  rw [round_eq, ofUnits] at known ⊢
  split at known
  · next fits =>
    rw [dif_pos fits]
    simp only [Binary64.finite.injEq, true_and] at known
    simp only [known]
  · cases known

theorem round_exact {n : Nat} (exact : Magnitude n) (negative : Bool) :
    round negative n 1 = .finite negative n exact := by
  have units : rounded n 1 = n := rounded_exact ((magnitude_iff n).mp exact).2
  rw [round_eq, units, ofUnits, dif_pos exact]

theorem round_eq_infinite {num den : Nat} (large : 2 * Nat.pow 2 2098 ≤ num / den)
    (negative : Bool) : round negative num den = .infinite negative := by
  have above := le_rounded num den
  have beyond : ¬ Magnitude (rounded num den) := by
    intro exact
    have below := exact.1
    generalize Nat.pow 2 2098 = limit at large below
    omega
  rw [round_eq, ofUnits, dif_neg beyond]

theorem ofRatio_scale {k : Nat} (positive : 0 < k) (negative : Bool) (num den : Nat) :
    ofRatio negative (k * num) (k * den) = ofRatio negative num den := by
  rw [ofRatio, Nat.mul_assoc, round_scale positive, ← ofRatio]

theorem rounded_lt {n a b c : Nat} (small : n ≤ 2 ^ a) (apart : a + b + 1 < c) :
    rounded (n * Nat.pow 2 b) 1 < Nat.pow 2 c := by
  have upper := rounded_le (n * 2 ^ b) 1
  have product : n * 2 ^ b ≤ 2 ^ a * 2 ^ b := Nat.mul_le_mul_right _ small
  have next : 2 ^ (a + b + 1 + 1) ≤ 2 ^ c := Nat.pow_le_pow_right (by omega) apart
  have positive : 0 < 2 ^ a * 2 ^ b := by positivity
  rw [Nat.div_one] at upper
  rw [Nat.pow_succ, Nat.pow_succ, Nat.pow_add] at next
  change rounded (n * 2 ^ b) 1 < 2 ^ c
  omega

theorem rounded_int_lt {n : Int} (small : n.natAbs ≤ 2 ^ 63) :
    rounded (n.natAbs * one) 1 < Nat.pow 2 2098 := by
  unfold one
  generalize same : 1074 = k
  generalize limit : 2098 = c
  exact rounded_lt small (by omega)

/-- Every integer of 64 bits widens to a finite number. -/
theorem ofInt_eq_finite {n : Int} (small : n.natAbs ≤ 2 ^ 63) :
    ofInt n = .finite (n < 0) (rounded (n.natAbs * one) 1)
      (magnitude_rounded (rounded_int_lt small)) := by
  rw [ofInt, ofRatio, round_eq_finite (rounded_int_lt small)]

end SmallLisp.Binary64
