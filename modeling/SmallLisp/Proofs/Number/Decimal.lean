import SmallLisp.Number.Decimal
import SmallLisp.Proofs.Number.Rounding
import SmallLisp.Proofs.Text.Row

/-! Decimals as numbers. The shortest decimal of a magnitude reads back as it, and the bounds
on the exponent, beyond which no power of ten is computed, change no number. -/
namespace SmallLisp

namespace Binary64

theorem two_pow_le_ten_pow {a b : Nat} (h : a ≤ 3 * b) : 2 ^ a ≤ 10 ^ b := by
  calc 2 ^ a ≤ 2 ^ (3 * b) := Nat.pow_le_pow_right (by omega) h
    _ = (2 ^ 3) ^ b := Nat.pow_mul ..
    _ ≤ 10 ^ b := Nat.pow_le_pow_left (by omega) b

theorem le_units_of_large {num den b c k : Nat} (positive : 0 < den) (large : den * 10 ^ b ≤ num)
    (apart : c + 1 ≤ 3 * b + k) : 2 * 2 ^ c ≤ num * 2 ^ k / den := by
  rw [Nat.le_div_iff_mul_le positive]
  have wide : 2 ^ (3 * b) ≤ 10 ^ b := two_pow_le_ten_pow (Nat.le_refl _)
  calc 2 * 2 ^ c * den = 2 ^ (c + 1) * den := by rw [Nat.pow_succ, Nat.mul_comm (2 ^ c)]
    _ ≤ 2 ^ (3 * b + k) * den := Nat.mul_le_mul_right _ (Nat.pow_le_pow_right (by omega) apart)
    _ = den * 2 ^ (3 * b) * 2 ^ k := by rw [Nat.pow_add]; ring
    _ ≤ den * 10 ^ b * 2 ^ k := Nat.mul_le_mul_right _ (Nat.mul_le_mul_left _ wide)
    _ ≤ num * 2 ^ k := Nat.mul_le_mul_right _ large

theorem units_lt_of_small {num den b k : Nat} (positive : 0 < den) (small : num * 10 ^ b ≤ den)
    (apart : k + 2 ≤ 3 * b) : 2 * (num * 2 ^ k) < den := by
  rcases Nat.eq_zero_or_pos num with rfl | more
  · simpa using positive
  · have units := Nat.mul_pos more (Nat.two_pow_pos k)
    calc 2 * (num * 2 ^ k) < 4 * (num * 2 ^ k) := by omega
      _ = num * 2 ^ (k + 2) := by ring
      _ ≤ num * 10 ^ b := Nat.mul_le_mul_left _ (two_pow_le_ten_pow apart)
      _ ≤ den := small

theorem ofRatio_eq_infinite {num den e : Nat} (positive : 0 < den) (large : den * 10 ^ e ≤ num)
    (beyond : 400 ≤ e) (negative : Bool) : ofRatio negative num den = .infinite negative := by
  unfold ofRatio one
  apply round_eq_infinite
  generalize limit : 2098 = c
  generalize width : 1074 = k
  exact le_units_of_large positive large (by omega)

theorem ofRatio_eq_zero {num den e : Nat} (positive : 0 < den) (small : num * 10 ^ e ≤ den)
    (beyond : 400 < e) (negative : Bool) : ofRatio negative num den = zero negative := by
  have tiny : 2 * (num * one) < den := by
    unfold one
    generalize width : 1074 = k
    exact units_lt_of_small positive small (by omega)
  rw [ofRatio, round_eq, rounded_eq_zero tiny, zero]

end Binary64

namespace Decimal

variable {n : Nat}

theorem toBinary64_ofNat (negative : Bool) (digits e : Nat) :
    toBinary64 negative ⟨digits, e⟩ = .ofRatio negative (digits * 10 ^ e) 1 := rfl

theorem toBinary64_negSucc (negative : Bool) (digits e : Nat) :
    toBinary64 negative ⟨digits, .negSucc e⟩ = .ofRatio negative digits (10 ^ (e + 1)) := rfl

/-- Zeros that are written out count as the exponent that they stand for. -/
theorem toBinary64_shift (negative : Bool) (digits e : Nat) :
    toBinary64 negative ⟨digits * 10 ^ (e + 1), -1⟩ = toBinary64 negative ⟨digits, e⟩ := by
  have product : digits * 10 ^ (e + 1) = 10 * (digits * 10 ^ e) := by ring
  have scaled := Binary64.ofRatio_scale (Nat.succ_pos 9) negative (digits * 10 ^ e) 1
  rw [← product] at scaled
  rw [toBinary64_ofNat]
  exact scaled

theorem toBinary64_zero (negative : Bool) (e : Int) :
    toBinary64 negative ⟨0, e⟩ = .zero negative := by
  have nothing (k den : Nat) : 0 * 10 ^ k ≤ den := by simp
  cases e with
  | ofNat e =>
    rw [Int.ofNat_eq_natCast, toBinary64_ofNat, Nat.zero_mul]
    exact Binary64.ofRatio_eq_zero Nat.one_pos (nothing _ 1) (Nat.lt_succ_self 400) negative
  | negSucc e =>
    have positive : 0 < 10 ^ (e + 1) := by positivity
    rw [toBinary64_negSucc]
    exact Binary64.ofRatio_eq_zero positive (nothing _ _) (Nat.lt_succ_self 400) negative

theorem toBinary64_eq_infinite {digits : Nat} {e : Int} (size : Nat) (least : 10 ^ size ≤ digits)
    (beyond : 400 ≤ e + size) (negative : Bool) :
    toBinary64 negative ⟨digits, e⟩ = .infinite negative := by
  cases e with
  | ofNat e =>
    rw [Int.ofNat_eq_natCast] at beyond ⊢
    have large : 1 * 10 ^ (e + size) ≤ digits * 10 ^ e := by
      rw [Nat.one_mul, Nat.pow_add, Nat.mul_comm]
      exact Nat.mul_le_mul_right _ least
    rw [toBinary64_ofNat]
    exact Binary64.ofRatio_eq_infinite Nat.one_pos large (by omega) negative
  | negSucc e =>
    have positive : 0 < 10 ^ (e + 1) := by positivity
    have large : 10 ^ (e + 1) * 10 ^ (size - (e + 1)) ≤ digits := by
      rw [← Nat.pow_add, Nat.add_sub_cancel' (by omega)]
      exact least
    rw [toBinary64_negSucc]
    exact Binary64.ofRatio_eq_infinite positive large (by omega) negative

theorem toBinary64_eq_zero {digits : Nat} {e : Int} (size : Nat) (most : digits < 10 ^ size)
    (beyond : e + size < -400) (negative : Bool) :
    toBinary64 negative ⟨digits, e⟩ = .zero negative := by
  cases e with
  | ofNat e =>
    rw [Int.ofNat_eq_natCast] at beyond
    omega
  | negSucc e =>
    have positive : 0 < 10 ^ (e + 1) := by positivity
    have small : digits * 10 ^ (e + 1 - size) ≤ 10 ^ (e + 1) := by
      calc digits * 10 ^ (e + 1 - size) ≤ 10 ^ size * 10 ^ (e + 1 - size) :=
            Nat.mul_le_mul_right _ (Nat.le_of_lt most)
        _ = 10 ^ (e + 1) := by rw [← Nat.pow_add, Nat.add_sub_cancel' (by omega)]
    rw [toBinary64_negSucc]
    exact Binary64.ofRatio_eq_zero positive small (by omega) negative

/-- The bounds on the exponent change no number. -/
theorem ofWideDecimal_eq (negative : Bool) (d : Decimal) :
    Binary64.ofWideDecimal negative d = d.toBinary64 negative := by
  obtain ⟨digits, e⟩ := d
  simp only [Binary64.ofWideDecimal]
  by_cases zero : digits = 0
  · rw [if_pos zero, zero, toBinary64_zero]
  · have most := Text.lt_pow_length_toDigits digits
    have least := Text.pow_length_toDigits_le zero
    have nonempty : 0 < (Nat.toDigits 10 digits).length := Nat.length_toDigits_pos
    rw [if_neg zero]
    split
    · rw [toBinary64_eq_infinite _ least (by omega)]
    · split
      · rw [toBinary64_eq_zero _ most (by omega)]
      · rfl

theorem readsBack_iff (exact : Binary64.Magnitude n) (d : Decimal) :
    readsBack n d = true ↔ d.toBinary64 false = .finite false n exact := by
  rw [readsBack, decide_eq_true_iff, Binary64.ofUnits, dif_pos exact]

/-- A magnitude is a sum of powers of two, so it has a finite decimal expansion. -/
theorem readsBack_expansion (exact : Binary64.Magnitude n) {k : Nat}
    (units : Binary64.one = Nat.pow 2 k) (positive : 0 < k) :
    readsBack n ⟨n * Nat.pow 5 k, -k⟩ = true := by
  obtain ⟨e, rfl⟩ := Nat.exists_eq_add_one.mpr positive
  have product : n * 5 ^ (e + 1) * 2 ^ (e + 1) = 10 ^ (e + 1) * n := by
    rw [Nat.mul_assoc, ← Nat.mul_pow, Nat.mul_comm]
  have whole : 0 < 10 ^ (e + 1) := by positivity
  have scaled := Binary64.round_scale whole false n 1
  rw [Nat.mul_one, ← product, Binary64.round_exact exact] at scaled
  have exponent : -((e + 1 : Nat) : Int) = .negSucc e := rfl
  rw [readsBack_iff exact, exponent, toBinary64_negSucc, Binary64.ofRatio, units]
  exact scaled

theorem readsBack_search (exact : Binary64.Magnitude n) (fuel : Nat) (e : Int) :
    readsBack n (search n fuel e) = true := by
  induction fuel generalizing e with
  | zero =>
    have units : Binary64.one = Nat.pow 2 1074 := by
      unfold Binary64.one
      generalize 1074 = k
      rfl
    have exponent : (-1074 : Int) = -((1074 : Nat) : Int) := rfl
    rw [search, exponent]
    generalize width : 1074 = k at units ⊢
    exact readsBack_expansion exact units (by omega)
  | succ fuel ih =>
    simp only [search]
    split
    · next d found => exact List.find?_some found
    · exact ih (e - 1)

/-- Whatever search finds it, the decimal of a magnitude is read as that magnitude, with
either sign. -/
theorem toBinary64_shortest (exact : Binary64.Magnitude n) (negative : Bool) :
    (shortest n).toBinary64 negative = .finite negative n exact := by
  have back := (readsBack_iff exact _).mp (readsBack_search exact 24 (ceiling n))
  simp only [toBinary64, Binary64.ofDecimal, Binary64.ofRatio] at back
  simp only [shortest, toBinary64, Binary64.ofDecimal, Binary64.ofRatio]
  split at back <;> exact Binary64.round_eq_finite_of_round back negative

end Decimal

end SmallLisp
