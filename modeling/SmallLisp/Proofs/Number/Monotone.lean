import Mathlib.Data.Nat.Log
import SmallLisp.Proofs.Number.Rounding

/-! Rounding keeps the order. Between two powers of two the spacing does not change, and what
is rounded up at most reaches the greater of them. So widening integers keeps their order,
though integers that are near each other may become equal. -/
namespace SmallLisp.Binary64

theorem nearest_mono {m n : Nat} (le : m ≤ n) (den : Nat) : nearest m den ≤ nearest n den := by
  have quotients : m / den ≤ n / den := Nat.div_le_div_right le
  rcases Nat.lt_or_eq_of_le quotients with less | same
  · have := nearest_le m den
    have := div_le_nearest n den
    omega
  · have rests : m % den ≤ n % den := by
      have first := Nat.div_add_mod m den
      have second := Nat.div_add_mod n den
      rw [same] at first
      omega
    simp only [nearest, same]
    split <;> split <;> omega

theorem rounded_le_two_pow (num den : Nat) : rounded num den ≤ 2 ^ ((num / den).log2 + 1) := by
  have quotient : num / (den * spacing (num / den)) = num / den / spacing (num / den) :=
    (Nat.div_div_eq_div_mul ..).symm
  have below : num / den < 2 ^ ((num / den).log2 + 1) := Nat.lt_log2_self
  simp only [rounded]
  generalize num / den = q at *
  have split : 2 ^ (q.log2 + 1) = 2 ^ (q.log2 + 1 - (q.log2 - 52)) * spacing q := by
    rw [spacing_eq, ← Nat.pow_add]
    congr 1
    omega
  have steps : nearest num (den * spacing q) ≤ 2 ^ (q.log2 + 1 - (q.log2 - 52)) := by
    have upper := nearest_le num (den * spacing q)
    rw [split] at below
    have := (Nat.div_lt_iff_lt_mul (spacing_pos q)).mpr below
    omega
  rw [split]
  exact Nat.mul_le_mul_right _ steps

theorem two_pow_le_rounded {num den : Nat} (positive : num / den ≠ 0) :
    2 ^ (num / den).log2 ≤ rounded num den := by
  have quotient : num / (den * spacing (num / den)) = num / den / spacing (num / den) :=
    (Nat.div_div_eq_div_mul ..).symm
  have lower := div_le_nearest num (den * spacing (num / den))
  have above : 2 ^ (num / den).log2 ≤ num / den := Nat.log2_self_le positive
  simp only [rounded]
  generalize num / den = q at *
  have split : 2 ^ q.log2 = 2 ^ (q.log2 - (q.log2 - 52)) * spacing q := by
    rw [spacing_eq, ← Nat.pow_add]
    congr 1
    omega
  have steps : 2 ^ (q.log2 - (q.log2 - 52)) ≤ q / spacing q := by
    rw [Nat.le_div_iff_mul_le (spacing_pos q), ← split]
    exact above
  rw [split]
  exact Nat.mul_le_mul_right _ (by omega)

theorem rounded_mono {m n : Nat} (le : m ≤ n) (den : Nat) : rounded m den ≤ rounded n den := by
  have quotients : m / den ≤ n / den := Nat.div_le_div_right le
  rcases Nat.lt_or_ge (m / den).log2 (n / den).log2 with less | ge
  · -- a power of two lies between the results
    have nonzero : n / den ≠ 0 := by
      intro zero
      rw [zero] at less
      simp at less
    calc rounded m den ≤ 2 ^ ((m / den).log2 + 1) := rounded_le_two_pow m den
      _ ≤ 2 ^ (n / den).log2 := Nat.pow_le_pow_right (by omega) less
      _ ≤ rounded n den := two_pow_le_rounded nonzero
  · have same : spacing (n / den) = spacing (m / den) := by
      have le : (m / den).log2 ≤ (n / den).log2 := by
        rw [Nat.log2_eq_log_two, Nat.log2_eq_log_two]
        exact Nat.log_mono_right quotients
      rw [spacing_eq, spacing_eq, Nat.le_antisymm le ge]
    simp only [rounded, same]
    exact Nat.mul_le_mul_right _ (nearest_mono le _)

theorem rank?_round (negative : Bool) (num den : Nat) :
    (round negative num den).rank? =
      some (signed negative (min (rounded num den) (Nat.pow 2 2098))) := by
  rw [round_eq, ofUnits]
  split
  · next exact =>
    have below := exact.1
    simp only [rank?]
    generalize Nat.pow 2 2098 = limit at below
    rw [Nat.min_eq_left (Nat.le_of_lt below)]
  · next beyond =>
    have above : ¬ rounded num den < Nat.pow 2 2098 := fun below => beyond (magnitude_rounded below)
    simp only [rank?]
    generalize Nat.pow 2 2098 = limit at above
    rw [Nat.min_eq_right (Nat.le_of_not_lt above)]

/-- The units of an integer that becomes a floating point number; too many are infinite. -/
def widenedUnits (n : Nat) : Nat := min (rounded (n * one) 1) (Nat.pow 2 2098)

/-- The rank of an integer among the floating point numbers. -/
def widenedRank (n : Int) : Int := signed (n < 0) (widenedUnits n.natAbs)

theorem rank?_ofInt (n : Int) : (ofInt n).rank? = some (widenedRank n) := by
  rw [ofInt, ofRatio, rank?_round, widenedRank, widenedUnits]

theorem widenedUnits_mono {m n : Nat} (le : m ≤ n) : widenedUnits m ≤ widenedUnits n := by
  have units := rounded_mono (Nat.mul_le_mul_right one le) 1
  simp only [widenedUnits]
  generalize Nat.pow 2 2098 = limit
  omega

theorem widenedRank_mono {m n : Int} (le : m ≤ n) : widenedRank m ≤ widenedRank n := by
  simp only [widenedRank, signed, decide_eq_true_eq]
  split <;> split
  · have : widenedUnits n.natAbs ≤ widenedUnits m.natAbs := widenedUnits_mono (by omega)
    omega
  · omega
  · omega
  · have : widenedUnits m.natAbs ≤ widenedUnits n.natAbs := widenedUnits_mono (by omega)
    omega

end SmallLisp.Binary64
