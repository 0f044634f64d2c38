import SmallLisp.Proofs.Number.Decimal

/-! The text of a floating point number is read as that number. Between the writer and the
reader stands a grammar of decimals with a point or an exponent: all that is written belongs
to it, and the reader gives what it says. -/
namespace SmallLisp

open Text

/-- A sign, or none, and whether it is a minus sign. -/
inductive SignText : List Char → Bool → Prop where
  | none : SignText [] false
  | plus : SignText ['+'] false
  | minus : SignText ['-'] true

theorem SignText.of_negative (negative : Bool) :
    SignText (if negative then ['-'] else []) negative := by
  cases negative with
  | true => exact .minus
  | false => exact .none

/-- The exponent after the digits, if there is one. -/
inductive ExponentText : List Char → Int → Prop where
  | none : ExponentText [] 0
  | some (negative : Bool) {digits : List Char} : digits ≠ [] →
      (∀ c ∈ digits, isAsciiDigit c = true) →
      ExponentText ('e' :: (if negative then '-' else '+') :: digits)
        (Binary64.signed negative (digitsValue digits))

/-- The decimals that cannot be taken for integers. -/
inductive DecimalText : List Char → Decimal → Prop where
  | pointed {whole fraction exponent : List Char} {e : Int} : whole ≠ [] →
      (∀ c ∈ whole, isAsciiDigit c = true) → (∀ c ∈ fraction, isAsciiDigit c = true) →
      ExponentText exponent e →
      DecimalText (whole ++ '.' :: (fraction ++ exponent))
        ⟨digitsValue (whole ++ fraction), e - fraction.length⟩
  | scientific {whole exponent : List Char} {e : Int} : whole ≠ [] →
      (∀ c ∈ whole, isAsciiDigit c = true) → ExponentText exponent e → exponent ≠ [] →
      DecimalText (whole ++ exponent) ⟨digitsValue whole, e⟩

/-- The characters of decimals. -/
def numerals : List Char := ['.', 'e', '+', '-'] ++ digitChars

theorem mem_numerals {c : Char} (digit : isAsciiDigit c = true) : c ∈ numerals :=
  List.mem_append_right _ (mem_digitChars digit)

theorem SignText.mem_numerals {sign : List Char} {negative : Bool}
    (signed : SignText sign negative) : ∀ c ∈ sign, c ∈ numerals := by
  cases signed with
  | none => nofun
  | plus => simp [numerals]
  | minus => simp [numerals]

theorem mem_numerals_of_mem_sign {negative : Prop} [Decidable negative] {c : Char}
    (sign : c ∈ if negative then ['-'] else []) : c ∈ numerals := by
  split at sign
  · exact SignText.minus.mem_numerals c sign
  · cases sign

variable {text exponent : List Char} {e : Int} {d : Decimal}

theorem ExponentText.stop (written : ExponentText exponent e) :
    ∀ c ∈ exponent.head?, isAsciiDigit c = false ∧ c ≠ '.' := by
  cases written with
  | none => simp
  | some negative => simp; decide

theorem ExponentText.exponent?_eq (written : ExponentText exponent e) :
    Binary64.exponent? exponent = .some e := by
  cases written with
  | none => rfl
  | some negative nonempty digits =>
    have all := List.all_eq_true.mpr digits
    cases negative <;> simp [Binary64.exponent?, Binary64.splitSign, nonempty, all]

theorem ExponentText.mem_numerals (written : ExponentText exponent e) :
    ∀ c ∈ exponent, c ∈ numerals := by
  cases written with
  | none => simp
  | some negative _ digits =>
    intro c member
    simp only [List.mem_cons] at member
    rcases member with rfl | rfl | later
    · decide
    · cases negative <;> decide
    · exact SmallLisp.mem_numerals (digits c later)

namespace DecimalText

/-- The reader follows the grammar. -/
theorem decimal?_eq (written : DecimalText text d) : Binary64.decimal? text = some d := by
  cases written with
  | @pointed whole fraction exponent e nonempty wholeDigits digits written =>
    have point : ∀ c ∈ ('.' :: (fraction ++ exponent)).head?, isAsciiDigit c = false := by
      simp [show isAsciiDigit '.' = false from by decide]
    have stop : ∀ c ∈ exponent.head?, isAsciiDigit c = false := fun c head => (written.stop c head).1
    have filled : (whole.isEmpty && fraction.isEmpty) = false := by simp [nonempty]
    simp only [Binary64.decimal?, span_row wholeDigits point, span_row digits stop,
      written.exponent?_eq, filled]
    rfl
  | @scientific whole exponent e nonempty wholeDigits written _ =>
    have stop : ∀ c ∈ exponent.head?, isAsciiDigit c = false := fun c head => (written.stop c head).1
    have filled : whole.isEmpty = false := by simp [nonempty]
    have unpointed : ∀ rest, exponent ≠ '.' :: rest := by
      rintro rest rfl
      exact (written.stop '.' rfl).2 rfl
    simp only [Binary64.decimal?, span_row wholeDigits stop]
    simp [written.exponent?_eq, filled]

theorem mem_numerals (written : DecimalText text d) : ∀ c ∈ text, c ∈ numerals := by
  intro c member
  cases written with
  | pointed _ wholeDigits digits exponent =>
    rcases List.mem_append.mp member with first | later
    · exact SmallLisp.mem_numerals (wholeDigits c first)
    · rcases List.mem_cons.mp later with rfl | later
      · decide
      · rcases List.mem_append.mp later with next | last
        · exact SmallLisp.mem_numerals (digits c next)
        · exact exponent.mem_numerals c last
  | scientific _ wholeDigits exponent _ =>
    rcases List.mem_append.mp member with first | later
    · exact SmallLisp.mem_numerals (wholeDigits c first)
    · exact exponent.mem_numerals c later

theorem first (written : DecimalText text d) :
    ∃ c rest, text = c :: rest ∧ isAsciiDigit c = true := by
  cases written with
  | pointed nonempty digits =>
    obtain ⟨c, rest, rfl⟩ := List.exists_cons_of_ne_nil nonempty
    exact ⟨c, _, rfl, digits c (by simp)⟩
  | scientific nonempty digits =>
    obtain ⟨c, rest, rfl⟩ := List.exists_cons_of_ne_nil nonempty
    exact ⟨c, _, rfl, digits c (by simp)⟩

/-- No row of digits. -/
theorem mark (written : DecimalText text d) : ∃ c ∈ text, isAsciiDigit c = false := by
  cases written with
  | pointed => exact ⟨'.', by simp, by decide⟩
  | scientific _ _ exponent marked =>
    cases exponent with
    | none => exact absurd rfl marked
    | some negative => exact ⟨'e', by simp, by decide⟩

end DecimalText

namespace DecimalLayout

theorem exponentText (layout : DecimalLayout) (magnitude : Int) :
    ExponentText ('e' :: (if magnitude < 0 then '-' else '+') ::
      (Nat.toDigits 10 magnitude.natAbs).leftpad layout.exponentDigits '0') magnitude := by
  have digits : ∀ c ∈ (Nat.toDigits 10 magnitude.natAbs).leftpad layout.exponentDigits '0',
      isAsciiDigit c = true := by
    intro c member
    rcases List.mem_append.mp member with zero | digit
    · exact isAsciiDigit_of_mem_zeros zero
    · exact isAsciiDigit_of_mem_toDigits digit
  have nonempty : (Nat.toDigits 10 magnitude.natAbs).leftpad layout.exponentDigits '0' ≠ [] := by
    simp [List.leftpad, Nat.toDigits_ne_nil]
  have value : Binary64.signed (magnitude < 0)
      (digitsValue ((Nat.toDigits 10 magnitude.natAbs).leftpad layout.exponentDigits '0')) =
      magnitude := by
    rw [List.leftpad, digitsValue_append, digitsValue_zeros, digitsValue_toDigits, Binary64.signed]
    simp only [decide_eq_true_eq]
    split <;> omega
  have written := ExponentText.some (magnitude < 0) nonempty digits
  rw [value] at written
  simpa using written

variable {digits : List Char} {e : Int}

/-- A decimal in its position says the same number. Where zeros are written before the point,
they stand for the exponent. -/
theorem positional_text (nonempty : digits ≠ []) (each : ∀ c ∈ digits, isAsciiDigit c = true) :
    ∃ d, DecimalText (positional digits (e + digits.length - 1)) d ∧
      ∀ negative, d.toBinary64 negative = Decimal.toBinary64 negative ⟨digitsValue digits, e⟩ := by
  have size : 0 < digits.length := List.length_pos_of_ne_nil nonempty
  have zero : ∀ c ∈ ['0'], isAsciiDigit c = true := List.forall_mem_singleton.mpr rfl
  simp only [positional]
  split
  · next small =>
    generalize same : (-(e + digits.length - 1) - 1).toNat = k
    have padded : ∀ c ∈ List.replicate k '0' ++ digits, isAsciiDigit c = true := by
      intro c member
      rcases List.mem_append.mp member with pad | digit
      · exact isAsciiDigit_of_mem_zeros pad
      · exact each c digit
    have written := DecimalText.pointed (by simp) zero padded .none
    have value : digitsValue (['0'] ++ (List.replicate k '0' ++ digits)) = digitsValue digits := by
      have zeros : ['0'] ++ List.replicate k '0' = List.replicate (k + 1) '0' := rfl
      rw [← List.append_assoc, zeros, digitsValue_append, digitsValue_zeros, Nat.zero_mul,
        Nat.zero_add]
    have place : 0 - ((List.replicate k '0' ++ digits).length : Int) = e := by
      rw [List.length_append, List.length_replicate]
      omega
    rw [value, place] at written
    refine ⟨_, ?_, fun _ => rfl⟩
    rw [zeros, same]
    simpa using written
  · next large =>
    split
    · next whole =>
      obtain ⟨k, rfl⟩ : ∃ k : Nat, e = k := ⟨e.toNat, by omega⟩
      have same : (k + digits.length - 1 + 1 - digits.length : Int).toNat = k := by omega
      have padded : ∀ c ∈ digits ++ List.replicate k '0', isAsciiDigit c = true := by
        intro c member
        rcases List.mem_append.mp member with digit | pad
        · exact each c digit
        · exact isAsciiDigit_of_mem_zeros pad
      have written := DecimalText.pointed (by simp [nonempty]) padded zero .none
      have value : digitsValue (digits ++ List.replicate k '0' ++ ['0']) =
          digitsValue digits * 10 ^ (k + 1) := by
        have zeros : List.replicate k '0' ++ ['0'] = List.replicate (k + 1) '0' :=
          List.replicate_succ'.symm
        rw [List.append_assoc, zeros, digitsValue_append, digitsValue_zeros, List.length_replicate,
          Nat.add_zero]
      rw [value] at written
      refine ⟨_, ?_, fun negative => Decimal.toBinary64_shift negative _ k⟩
      rw [zeros, same]
      simpa using written
    · next part =>
      generalize cut : (e + digits.length - 1 + 1).toNat = k
      have before : digits.take k ≠ [] := by simp [nonempty]; omega
      have first : ∀ c ∈ digits.take k, isAsciiDigit c = true :=
        fun c member => each c (List.mem_of_mem_take member)
      have rest : ∀ c ∈ digits.drop k, isAsciiDigit c = true :=
        fun c member => each c (List.mem_of_mem_drop member)
      have written := DecimalText.pointed before first rest .none
      have place : 0 - ((digits.drop k).length : Int) = e := by
        rw [List.length_drop]
        omega
      rw [List.take_append_drop, place] at written
      refine ⟨_, ?_, fun _ => rfl⟩
      simpa using written

theorem scientific_text (layout : DecimalLayout) (nonempty : digits ≠ [])
    (each : ∀ c ∈ digits, isAsciiDigit c = true) :
    DecimalText (layout.scientific digits (e + digits.length - 1)) ⟨digitsValue digits, e⟩ := by
  have exponent := layout.exponentText (e + digits.length - 1)
  obtain ⟨first, rest, rfl⟩ := List.exists_cons_of_ne_nil nonempty
  have lead : ∀ c ∈ [first], isAsciiDigit c = true := fun c member => each c (by simp_all)
  cases rest with
  | nil =>
    have place : e + ([first].length : Int) - 1 = e := by simp
    rw [place] at exponent ⊢
    exact .scientific (by simp) lead exponent (by simp)
  | cons second rest =>
    have written := DecimalText.pointed (by simp) lead
      (fun c member => each c (List.mem_cons_of_mem first member)) exponent
    have place : e + ((first :: second :: rest).length : Int) - 1 -
        ((second :: rest).length : Int) = e := by
      simp only [List.length_cons]
      omega
    rw [place] at written
    exact written

/-- Whatever the layout, the text of a decimal says its number. -/
theorem render_text (layout : DecimalLayout) (d : Decimal) :
    ∃ d', DecimalText (layout.render d) d' ∧
      ∀ negative, d'.toBinary64 negative = d.toBinary64 negative := by
  have nonempty : Nat.toDigits 10 d.digits ≠ [] := Nat.toDigits_ne_nil
  have each : ∀ c ∈ Nat.toDigits 10 d.digits, isAsciiDigit c = true :=
    fun _ => isAsciiDigit_of_mem_toDigits
  simp only [render]
  split
  · simpa [digitsValue_toDigits] using positional_text nonempty each
  · refine ⟨d, ?_, fun _ => rfl⟩
    simpa [digitsValue_toDigits] using scientific_text layout nonempty each

end DecimalLayout

namespace Binary64

theorem splitSign_append {sign : List Char} {negative : Bool} (signed : SignText sign negative)
    (first : ∃ c rest, text = c :: rest ∧ isAsciiDigit c = true) :
    splitSign (sign ++ text) = (negative, text) := by
  obtain ⟨c, rest, rfl, digit⟩ := first
  cases signed with
  | minus => rfl
  | plus => rfl
  | none =>
    have notMinus : c ≠ '-' := by rintro rfl; cases digit
    have notPlus : c ≠ '+' := by rintro rfl; cases digit
    rw [List.nil_append]
    simp only [splitSign]
    split
    · next same => exact absurd (List.cons.inj same).1 notMinus
    · next same => exact absurd (List.cons.inj same).1 notPlus
    · rfl

theorem splitSign_signed (first : ∃ c rest, text = c :: rest ∧ isAsciiDigit c = true)
    (negative : Bool) :
    splitSign ((if negative then ['-'] else []) ++ text) = (negative, text) :=
  splitSign_append (.of_negative negative) first

/-- What is read as a decimal is, after a sign or without one, read as the number that the
decimal says. -/
theorem ofText?_append {sign : List Char} {negative : Bool} (signed : SignText sign negative)
    (each : ∀ c ∈ text, c ∈ numerals) (first : ∃ c rest, text = c :: rest ∧ isAsciiDigit c = true)
    (read : decimal? text = some d) : ofText? (sign ++ text) = some (d.toBinary64 negative) := by
  have numeral : ∀ c ∈ sign ++ text, c ∈ numerals := by
    intro c member
    rcases List.mem_append.mp member with sign | digit
    · exact signed.mem_numerals c sign
    · exact each c digit
  have plain (c : Char) (numeral : c ∈ numerals) : c.toNat < 0x80 ∧ isPadding c = false := by
    have all : numerals.all (fun c => c.toNat < 0x80 && !isPadding c) = true := by decide
    simpa using List.all_eq_true.mp all c numeral
  have ascii : asciiForm (sign ++ text) = sign ++ text := by
    rw [asciiForm, if_pos]
    exact List.all_eq_true.mpr fun c member => decide_eq_true (plain c (numeral c member)).1
  have whole := trim_eq_self fun c member => (plain c (numeral c member)).2
  obtain ⟨c, rest, same, digit⟩ := first
  have letters : digitChars.all (fun c => c.toLower != 'i' && c.toLower != 'n') = true := by decide
  obtain ⟨notI, notN⟩ : c.toLower ≠ 'i' ∧ c.toLower ≠ 'n' := by
    simpa using List.all_eq_true.mp letters c (mem_digitChars digit)
  have unnamed (name : String) (first : ∀ d ∈ name.toList.head?, c.toLower ≠ d) :
      String.ofList (text.map Char.toLower) ≠ name := by
    intro named
    have head : name.toList.head? = some c.toLower := by simp [← named, same]
    exact first c.toLower head rfl
  simp only [ofText?, ascii, whole, splitSign_append signed ⟨c, rest, same, digit⟩]
  rw [if_neg, if_neg (unnamed "nan" (by simpa using notN))]
  · simp [read, Decimal.ofWideDecimal_eq]
  · exact not_or.mpr ⟨unnamed "inf" (by simpa using notI),
      unnamed "infinity" (by simpa using notI)⟩

/-- A decimal with a sign, or without one, is read as the number that it says. -/
theorem ofText?_decimal (written : DecimalText text d) (negative : Bool) :
    ofText? ((if negative then ['-'] else []) ++ text) = some (d.toBinary64 negative) :=
  ofText?_append (.of_negative negative) written.mem_numerals written.first written.decimal?_eq

/-- The text of a finite number belongs to the grammar after its sign. -/
theorem chars_finite_text (negative : Bool) {n : Nat} (exact : Magnitude n) :
    ∃ text d, (finite negative n exact).chars = (if negative then ['-'] else []) ++ text ∧
      DecimalText text d ∧ d.toBinary64 negative = .finite negative n exact := by
  by_cases nothing : n = 0
  · refine ⟨['0', '.', '0'], ⟨0, -1⟩, by rw [chars, if_pos nothing], ?_, ?_⟩
    · have zero : ∀ c ∈ ['0'], isAsciiDigit c = true := List.forall_mem_singleton.mpr rfl
      exact .pointed (by simp) zero zero .none
    · rw [Decimal.toBinary64_zero, zero, ofUnits]
      subst nothing
      rw [dif_pos exact]
  · obtain ⟨d, written, same⟩ := layout.render_text (Decimal.shortest n)
    refine ⟨_, d, by rw [chars, if_neg nothing], written, ?_⟩
    rw [same, Decimal.toBinary64_shortest exact]

/-- Every floating point number is read back from its text, the signed zeros, the infinities
and what is no number included. -/
theorem ofText?_chars (x : Binary64) : ofText? x.chars = some x := by
  cases x with
  | nan => decide +kernel
  | infinite negative => cases negative <;> decide +kernel
  | finite negative n exact =>
    obtain ⟨text, d, same, written, value⟩ := chars_finite_text negative exact
    rw [same, ofText?_decimal written, value]

end Binary64

end SmallLisp
