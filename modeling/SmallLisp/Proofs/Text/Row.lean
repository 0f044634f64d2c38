import Mathlib.Algebra.Group.Nat.Defs
import Mathlib.Data.List.TakeDrop
import Mathlib.Tactic.Ring
import SmallLisp.Text.CharClass

/-! Rows of characters of one class, and what rows of ASCII digits write. -/
namespace SmallLisp.Text

section

variable {p : Char → Bool} {row rest : List Char}

/-- A row reaches to the first character of another class. -/
theorem takeWhile_row (all : ∀ c ∈ row, p c = true) (stop : ∀ c ∈ rest.head?, p c = false) :
    (row ++ rest).takeWhile p = row := by
  rw [List.takeWhile_append_of_pos all]
  cases rest with
  | nil => simp
  | cons c rest => simp [stop c rfl]

theorem dropWhile_row (all : ∀ c ∈ row, p c = true) (stop : ∀ c ∈ rest.head?, p c = false) :
    (row ++ rest).dropWhile p = rest := by
  rw [List.dropWhile_append_of_pos all]
  cases rest with
  | nil => rfl
  | cons c rest => simp [stop c rfl]

theorem span_row (all : ∀ c ∈ row, p c = true) (stop : ∀ c ∈ rest.head?, p c = false) :
    (row ++ rest).span p = (row, rest) := by
  rw [List.span_eq_takeWhile_dropWhile, takeWhile_row all stop, dropWhile_row all stop]

/-- Nothing is trimmed where nothing can be. -/
theorem trim_eq_self {text : List Char} (free : ∀ c ∈ text, p c = false) : trim p text = text := by
  have keep (text : List Char) (free : ∀ c ∈ text, p c = false) : text.dropWhile p = text := by
    cases text with
    | nil => rfl
    | cons c rest => simp [free c (by simp)]
  rw [trim, keep text free, keep text.reverse (by simpa using free), List.reverse_reverse]

end

def digitChars : List Char := ['0', '1', '2', '3', '4', '5', '6', '7', '8', '9']

theorem digit_bounds {c : Char} (digit : isAsciiDigit c = true) : 48 ≤ c.toNat ∧ c.toNat ≤ 57 := by
  simpa [isAsciiDigit, Char.le_def, UInt32.le_iff_toNat_le] using digit

theorem mem_digitChars {c : Char} (digit : isAsciiDigit c = true) : c ∈ digitChars := by
  have each : ∀ k < 10, Char.ofNat (48 + k) ∈ digitChars := by decide
  have bounds := digit_bounds digit
  have same : c = Char.ofNat (48 + (c.toNat - 48)) := by
    rw [Nat.add_sub_cancel' bounds.1, Char.ofNat_toNat]
  rw [same]
  exact each _ (by omega)

theorem digitsValue_append (first second : List Char) :
    digitsValue (first ++ second) =
      digitsValue first * 10 ^ second.length + digitsValue second := by
  change Nat.ofDigitChars 10 (first ++ second) 0 = _
  rw [Nat.ofDigitChars_append, Nat.ofDigitChars_eq_ofDigitChars_zero, Nat.mul_comm]
  rfl

theorem digitsValue_zeros (n : Nat) : digitsValue (List.replicate n '0') = 0 :=
  Nat.ofDigitChars_replicate_zero

theorem digitsValue_toDigits (n : Nat) : digitsValue (Nat.toDigits 10 n) = n :=
  Nat.ofDigitChars_ten_toDigits

theorem isAsciiDigit_of_mem_toDigits {n : Nat} {c : Char} (member : c ∈ Nat.toDigits 10 n) :
    isAsciiDigit c = true := by
  have digit := Nat.isDigit_of_mem_toDigits (by omega) (by omega) member
  simpa [Char.isDigit, isAsciiDigit, Char.le_def] using digit

theorem isAsciiDigit_of_mem_zeros {n : Nat} {c : Char} (member : c ∈ List.replicate n '0') :
    isAsciiDigit c = true := by
  rw [List.eq_of_mem_replicate member]
  rfl

/-- A positive number has its leading digit in the place that it has digits for. -/
theorem pow_length_toDigits_le {n : Nat} (positive : n ≠ 0) :
    10 ^ ((Nat.toDigits 10 n).length - 1) ≤ n := by
  rcases Nat.eq_zero_or_pos ((Nat.toDigits 10 n).length - 1) with short | long
  · rw [short]
    exact Nat.pos_of_ne_zero positive
  · have longer : ¬ (Nat.toDigits 10 n).length ≤ (Nat.toDigits 10 n).length - 1 := by omega
    rw [Nat.length_toDigits_le_iff (by omega) long] at longer
    exact Nat.le_of_not_lt longer

theorem lt_pow_length_toDigits (n : Nat) : n < 10 ^ (Nat.toDigits 10 n).length :=
  (Nat.length_toDigits_le_iff (by omega) Nat.length_toDigits_pos).mp (Nat.le_refl _)

variable {digits : List Char}

theorem digitsValue_cons (c : Char) (digits : List Char) :
    digitsValue (c :: digits) = (c.toNat - '0'.toNat) * 10 ^ digits.length + digitsValue digits := by
  have one : digitsValue [c] = c.toNat - '0'.toNat := by simp [digitsValue]
  rw [← one, ← digitsValue_append, List.singleton_append]

theorem digit_le {c : Char} (digit : isAsciiDigit c = true) : c.toNat - '0'.toNat ≤ 9 :=
  Nat.sub_le_sub_right (digit_bounds digit).2 48

theorem digit_pos {c : Char} (digit : isAsciiDigit c = true) (nonzero : c ≠ '0') :
    1 ≤ c.toNat - '0'.toNat := by
  have other : c.toNat ≠ 48 := fun same => nonzero (Char.toNat_inj.mp same)
  exact Nat.sub_pos_of_lt (Nat.lt_of_le_of_ne (digit_bounds digit).1 other.symm)

theorem digitsValue_lt (each : ∀ c ∈ digits, isAsciiDigit c = true) :
    digitsValue digits < 10 ^ digits.length := by
  induction digits with
  | nil => decide
  | cons c rest ih =>
    have first := digit_le (each c (by simp))
    have later := ih fun d member => each d (by simp [member])
    rw [digitsValue_cons, List.length_cons]
    calc (c.toNat - '0'.toNat) * 10 ^ rest.length + digitsValue rest
        < (c.toNat - '0'.toNat) * 10 ^ rest.length + 10 ^ rest.length := by omega
      _ = (c.toNat - '0'.toNat + 1) * 10 ^ rest.length := by ring
      _ ≤ 10 * 10 ^ rest.length := Nat.mul_le_mul_right _ (by omega)
      _ = 10 ^ (rest.length + 1) := by ring

theorem digitsValue_dropWhile_zeros (digits : List Char) :
    digitsValue (digits.dropWhile (· = '0')) = digitsValue digits := by
  induction digits with
  | nil => rfl
  | cons c rest ih =>
    by_cases zero : c = '0'
    · subst zero
      have nothing : '0'.toNat - '0'.toNat = 0 := by decide
      rw [List.dropWhile_cons_of_pos (by simp), ih, digitsValue_cons, nothing]
      omega
    · rw [List.dropWhile_cons_of_neg (by simpa using zero)]

/-- Without leading zeros, the number of digits is that of the value. -/
theorem length_dropWhile_zeros_le_iff (each : ∀ c ∈ digits, isAsciiDigit c = true) (k : Nat) :
    (digits.dropWhile (· = '0')).length ≤ k ↔ digitsValue digits < 10 ^ k := by
  have kept : ∀ c ∈ digits.dropWhile (· = '0'), isAsciiDigit c = true :=
    fun c member => each c ((List.dropWhile_suffix _).mem member)
  rw [← digitsValue_dropWhile_zeros]
  constructor
  · intro short
    calc _ < 10 ^ (digits.dropWhile (· = '0')).length := digitsValue_lt kept
      _ ≤ 10 ^ k := Nat.pow_le_pow_right (by omega) short
  · intro small
    cases same : digits.dropWhile (· = '0') with
    | nil => simp
    | cons c rest =>
      have nonzero : c ≠ '0' := by
        have head := List.head?_dropWhile_not (· = '0') digits
        rw [same] at head
        simpa using head
      have lead := digit_pos (kept c (by simp [same])) nonzero
      rw [same, digitsValue_cons] at small
      by_contra long
      rw [List.length_cons, Nat.not_le] at long
      have wide : 10 ^ k ≤ 10 ^ rest.length := Nat.pow_le_pow_right (by omega) (by omega)
      have least := Nat.mul_le_mul_right (10 ^ rest.length) lead
      omega

end SmallLisp.Text
