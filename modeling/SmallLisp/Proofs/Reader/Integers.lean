import SmallLisp.Proofs.Number.DecimalText
import SmallLisp.Reader.Expression

/-! Integer literals. How many digits there are without leading zeros tells whether the number
may fit in 64 bits, so the range decides between an integer and a floating point number, but
only up to a limit on the digits that are counted out: zeros in front of a small number can
exceed it. -/
namespace SmallLisp

open Text

variable {text digits : List Char} {negative : Bool}

theorem decimal?_digits (some : digits ≠ []) (each : ∀ c ∈ digits, isAsciiDigit c = true) :
    Binary64.decimal? digits = .some ⟨digitsValue digits, 0⟩ := by
  have stop : ∀ c ∈ ([] : List Char).head?, isAsciiDigit c = false := nofun
  have row := span_row each stop
  rw [List.append_nil] at row
  have filled : (digits.isEmpty && ([] : List Char).isEmpty) = false := by simp [some]
  simp only [Binary64.decimal?, row, filled]
  simp [Binary64.exponent?]

/-- Digits after at most one sign. -/
inductive IntegerText : List Char → Bool → List Char → Prop where
  | signed {sign digits : List Char} {negative : Bool} : SignText sign negative → digits ≠ [] →
      (∀ c ∈ digits, isAsciiDigit c = true) → IntegerText (sign ++ digits) negative digits

theorem IntegerText.isAsciiDigit (written : IntegerText text negative digits) :
    ∀ c ∈ digits, Text.isAsciiDigit c = true := by
  cases written
  assumption

theorem toBinary64_whole (negative : Bool) (n : Nat) :
    Decimal.toBinary64 negative ⟨n, 0⟩ = .ofRatio negative n 1 := by
  have whole : (0 : Int) = (0 : Nat) := rfl
  rw [whole, Decimal.toBinary64_ofNat, Nat.pow_zero, Nat.mul_one]

theorem IntegerText.ofText?_eq (written : IntegerText text negative digits) :
    Binary64.ofText? text = some (.ofRatio negative (digitsValue digits) 1) := by
  rw [← toBinary64_whole]
  obtain ⟨signed, nonempty, each⟩ := written
  obtain ⟨c, rest, rfl⟩ := List.exists_cons_of_ne_nil nonempty
  exact Binary64.ofText?_append signed (fun c member => mem_numerals (each c member))
    ⟨c, rest, rfl, each c (by simp)⟩ (decimal?_digits nonempty each)

namespace Atom

theorem splitSign_spec (text : List Char) : ∃ sign, SignText sign (Binary64.splitSign text).1 ∧
    text = sign ++ (Binary64.splitSign text).2 := by
  fun_cases Binary64.splitSign text with
  | case1 rest => exact ⟨['-'], .minus, rfl⟩
  | case2 rest => exact ⟨['+'], .plus, rfl⟩
  | case3 => exact ⟨[], .none, rfl⟩

theorem integer?_eq_some_iff :
    integer? text = some (negative, digits) ↔ IntegerText text negative digits := by
  constructor
  · intro known
    obtain ⟨sign, signed, same⟩ := splitSign_spec text
    simp only [integer?] at known
    split at known
    · next written =>
      cases known
      have nonempty : (Binary64.splitSign text).2 ≠ [] := by simpa using written.1
      have made := IntegerText.signed signed nonempty (List.all_eq_true.mp written.2)
      rwa [← same] at made
    · cases known
  · rintro ⟨signed, nonempty, each⟩
    obtain ⟨c, rest, rfl⟩ := List.exists_cons_of_ne_nil nonempty
    have split := Binary64.splitSign_append signed ⟨c, rest, rfl, each c (by simp)⟩
    simp [integer?, split, List.all_eq_true.mpr each]

theorem InRange.lt {magnitude : Nat} (fits : Value.InRange (Binary64.signed negative magnitude)) :
    magnitude < 10 ^ integerDigits := by
  simp only [Value.InRange, Value.leastInt, Value.greatestInt, Binary64.signed, integerDigits] at *
  split at fits <;> omega

/-- The count of digits only forestalls the range, but a number is not made of too many. -/
theorem ofDigits_eq (each : ∀ c ∈ digits, isAsciiDigit c = true) :
    ofDigits negative digits =
      if digitLimit < digits.length ∧ digitsValue digits < 10 ^ integerDigits then
        .error (.tooManyDigits digits.length)
      else if Value.InRange (Binary64.signed negative (digitsValue digits)) then
        .ok (.int (Binary64.signed negative (digitsValue digits)))
      else .ok (.float (.ofRatio negative (digitsValue digits) 1)) := by
  have float : Binary64.ofWideDecimal negative ⟨digitsValue digits, 0⟩ =
      .ofRatio negative (digitsValue digits) 1 := by
    rw [Decimal.ofWideDecimal_eq, toBinary64_whole]
  simp only [ofDigits, length_dropWhile_zeros_le_iff each, float]
  by_cases small : digitsValue digits < 10 ^ integerDigits
  · simp only [small, and_true, if_true]
    split
    · rfl
    · exact apply_ite ..
  · have wide : ¬ Value.InRange (Binary64.signed negative (digitsValue digits)) :=
      fun fits => small (InRange.lt fits)
    simp only [small, and_false, if_false, wide]

/-- A literal is an integer where it fits, and else the number that the text of a floating point
number would be. It is refused if it would fit in as many digits as the greatest integer but is
written with more digits than are counted out. -/
theorem ofItem_of_integerText {text : String} (written : IntegerText text.toList negative digits) :
    ofItem text =
        (if digitLimit < digits.length ∧ digitsValue digits < 10 ^ integerDigits then
          .error (.tooManyDigits digits.length)
        else if Value.InRange (Binary64.signed negative (digitsValue digits)) then
          .ok (.int (Binary64.signed negative (digitsValue digits)))
        else .ok (.float (.ofRatio negative (digitsValue digits) 1))) ∧
      Binary64.ofText? text.toList = some (.ofRatio negative (digitsValue digits) 1) := by
  refine ⟨?_, written.ofText?_eq⟩
  rw [ofItem, integer?_eq_some_iff.mpr written]
  exact ofDigits_eq written.isAsciiDigit

theorem ofItem_of_integerText_too_great : IntegerText "+09223372036854775808".toList false
      "09223372036854775808".toList ∧
    ofItem "+09223372036854775808" = .ok (.float (.ofRatio false 9223372036854775808 1)) := by
  have written : IntegerText "+09223372036854775808".toList false "09223372036854775808".toList :=
    .signed .plus (by decide) (List.all_eq_true.mp (by decide))
  refine ⟨written, (ofItem_of_integerText written).1.trans ?_⟩
  rw [if_neg (by decide), if_neg (by decide)]
  rfl

theorem integerText_zeros {k : Nat} (some : 0 < k) :
    IntegerText (List.replicate k '0') false (List.replicate k '0') := by
  have nonempty : List.replicate k '0' ≠ [] := by
    apply List.ne_nil_of_length_pos
    rwa [List.length_replicate]
  exact .signed .none nonempty fun _ => isAsciiDigit_of_mem_zeros

theorem ofItem_zeros {k : Nat} (long : digitLimit < k) :
    ofItem (String.ofList (List.replicate k '0')) = .error (.tooManyDigits k) := by
  have written := integerText_zeros (Nat.lt_of_le_of_lt (Nat.zero_le _) long)
  have digits : ofDigits false (List.replicate k '0') = _ := ofDigits_eq written.isAsciiDigit
  rw [digitsValue_zeros, List.length_replicate, if_pos ⟨long, by decide⟩] at digits
  simp only [ofItem, String.toList_ofList, integer?_eq_some_iff.mpr written]
  exact digits

/-- Zero with as many zeros in front of it as are counted out. -/
theorem ofItem_of_padded_zero :
    IntegerText (List.replicate 4301 '0') false (List.replicate 4301 '0') ∧
      digitsValue (List.replicate 4301 '0') = 0 ∧ Value.InRange 0 ∧
      ofItem (String.ofList (List.replicate 4301 '0')) = .error (.tooManyDigits 4301) :=
  ⟨integerText_zeros (by decide), digitsValue_zeros 4301, by decide, ofItem_zeros (by decide)⟩

end Atom

end SmallLisp
