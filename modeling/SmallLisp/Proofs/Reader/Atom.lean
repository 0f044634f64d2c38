import SmallLisp.Proofs.Number.DecimalText
import SmallLisp.Proofs.Reader.Names
import SmallLisp.Reader.Expression
import SmallLisp.Value.Printer

/-! Atoms are read back from their text: numbers, constants, the names that are neither, and
strings, whatever characters are in them. -/
namespace SmallLisp

open Text

theorem toList_toString_int (n : Int) :
    (toString n).toList = (if n < 0 then ['-'] else []) ++ Nat.toDigits 10 n.natAbs := by
  cases n with
  | ofNat n => simp [toString, Int.repr]
  | negSucc n => simp [toString, Int.repr]

namespace Atom

/-- The text is one token, no quote mark, and is read as the value. -/
structure Writes (text : String) (v : Value) : Prop where
  named : IsName text
  unmarked : text ≠ Pending.quoteMark
  read : ofItem text = .ok v

theorem integer?_signed (negative : Bool) {digits : List Char} (nonempty : digits ≠ [])
    (each : ∀ c ∈ digits, isAsciiDigit c = true) :
    integer? ((if negative then ['-'] else []) ++ digits) = some (negative, digits) := by
  have first : ∃ c rest, digits = c :: rest ∧ isAsciiDigit c = true := by
    obtain ⟨c, rest, rfl⟩ := List.exists_cons_of_ne_nil nonempty
    exact ⟨c, rest, rfl, each c (by simp)⟩
  have split := Binary64.splitSign_signed first negative
  simp [integer?, split, nonempty, List.all_eq_true.mpr each]

theorem ofDigits_eq_int {n : Int} (fits : Value.InRange n) :
    ofDigits (n < 0) (Nat.toDigits 10 n.natAbs) = .ok (.int n) := by
  have bound : n.natAbs < 10 ^ integerDigits := by
    obtain ⟨least, greatest⟩ := fits
    simp only [Value.leastInt, Value.greatestInt, integerDigits] at *
    omega
  have few : (Nat.toDigits 10 n.natAbs).length ≤ integerDigits :=
    (Nat.length_toDigits_le_iff (by omega) (by decide)).mpr bound
  have fewer : ((Nat.toDigits 10 n.natAbs).dropWhile (· = '0')).length ≤ integerDigits :=
    Nat.le_trans (List.dropWhile_suffix _).length_le few
  have counted : ¬ digitLimit < (Nat.toDigits 10 n.natAbs).length := by
    simp only [integerDigits, digitLimit] at *
    omega
  have same : Binary64.signed (n < 0) n.natAbs = n := by
    simp only [Binary64.signed, decide_eq_true_eq]
    split <;> omega
  simp only [ofDigits, digitsValue_toDigits, same]
  rw [if_pos fewer, if_neg counted, if_pos fits]

/-- The characters of numbers, which the names of infinity and of not-a-number have too. -/
def numberChars : List Char := ['a', 'f', 'i', 'n'] ++ numerals

theorem mem_numberChars {c : Char} (numeral : c ∈ numerals) : c ∈ numberChars :=
  List.mem_append_right _ numeral

theorem isName_of_numberChars {text : String} (nonempty : text.toList ≠ [])
    (each : ∀ c ∈ text.toList, c ∈ numberChars) : IsName text := by
  have items : numberChars.all Token.isItemChar = true := by decide
  exact Token.isName_of_all nonempty
    (List.all_eq_true.mpr fun c member => List.all_eq_true.mp items c (each c member))

/-- The text of a number is a token that no quote mark is taken for. -/
theorem writes_of_numberChars {text : String} {v : Value} (nonempty : text.toList ≠ [])
    (each : ∀ c ∈ text.toList, c ∈ numberChars) (read : ofItem text = .ok v) : Writes text v := by
  refine ⟨isName_of_numberChars nonempty each, ?_, read⟩
  rintro rfl
  have mark : '\'' ∈ numberChars := each '\'' (by decide)
  revert mark
  decide

theorem mem_numberChars_of_int (n : Int) : ∀ c ∈ (toString n).toList, c ∈ numberChars := by
  intro c member
  rw [toList_toString_int] at member
  rcases List.mem_append.mp member with sign | digit
  · exact mem_numberChars (mem_numerals_of_mem_sign sign)
  · exact mem_numberChars (mem_numerals (isAsciiDigit_of_mem_toDigits digit))

theorem toString_int_ne_nil (n : Int) : (toString n).toList ≠ [] := by
  rw [toList_toString_int]
  exact List.append_ne_nil_of_right_ne_nil _ Nat.toDigits_ne_nil

theorem integer?_toString (n : Int) :
    integer? (toString n).toList = some (decide (n < 0), Nat.toDigits 10 n.natAbs) := by
  have digits : ∀ c ∈ Nat.toDigits 10 n.natAbs, isAsciiDigit c = true :=
    fun _ => isAsciiDigit_of_mem_toDigits
  rw [toList_toString_int]
  simpa only [decide_eq_true_eq] using integer?_signed (n < 0) Nat.toDigits_ne_nil digits

theorem writes_int {n : Int} (fits : Value.InRange n) : Writes (toString n) (.int n) := by
  apply writes_of_numberChars (toString_int_ne_nil n) (mem_numberChars_of_int n)
  rw [ofItem, integer?_toString]
  exact ofDigits_eq_int fits

theorem mem_numberChars_of_mem_chars (x : Binary64) : ∀ c ∈ x.chars, c ∈ numberChars := by
  cases x with
  | nan => simp [Binary64.chars, numberChars]
  | infinite negative => cases negative <;> simp [Binary64.chars, numberChars, numerals]
  | finite negative n exact =>
    obtain ⟨text, d, same, written, _⟩ := Binary64.chars_finite_text negative exact
    intro c member
    rw [same] at member
    rcases List.mem_append.mp member with sign | digit
    · exact mem_numberChars (mem_numerals_of_mem_sign sign)
    · exact mem_numberChars (written.mem_numerals c digit)

/-- A number with a point, an exponent or a name is no integer. -/
theorem integer?_chars (x : Binary64) : integer? x.chars = none := by
  cases x with
  | nan => decide
  | infinite negative => cases negative <;> decide
  | finite negative n exact =>
    obtain ⟨text, d, same, written, _⟩ := Binary64.chars_finite_text negative exact
    have split := Binary64.splitSign_signed written.first negative
    obtain ⟨c, member, mark⟩ := written.mark
    have broken : text.all isAsciiDigit = false := List.all_eq_false.mpr ⟨c, member, by simp [mark]⟩
    simp [integer?, same, split, broken]

theorem writes_float (x : Binary64) : Writes x.text (.float x) := by
  have each := mem_numberChars_of_mem_chars x
  have nonempty : x.chars ≠ [] := by
    intro empty
    have read := Binary64.ofText?_chars x
    have nothing : Binary64.ofText? [] = none := by decide
    rw [empty, nothing] at read
    cases read
  have plain : '_' ∉ x.chars := by
    have absent : '_' ∉ numberChars := by decide
    exact fun member => absent (each '_' member)
  have text : x.text.toList = x.chars := String.toList_ofList
  apply writes_of_numberChars (by rw [text]; exact nonempty) (by rw [text]; exact each)
  rw [ofItem, text, integer?_chars]
  simp [float?, plain, Binary64.ofText?_chars]

/-- A name that the reader does not take for anything else. -/
structure Readable (s : String) : Prop where
  named : IsName s
  unmarked : s ≠ Pending.quoteMark
  noInteger : integer? s.toList = none
  noFloat : float? s.toList = none
  noConstant : constant? s = none

instance (s : String) : Decidable (Readable s) :=
  decidable_of_iff (IsName s ∧ s ≠ Pending.quoteMark ∧ integer? s.toList = none ∧
    (float? s.toList).isNone ∧ (constant? s).isNone)
    ⟨fun ⟨a, b, c, d, e⟩ => ⟨a, b, c, Option.isNone_iff_eq_none.mp d, Option.isNone_iff_eq_none.mp e⟩,
      fun ⟨a, b, c, d, e⟩ => ⟨a, b, c, Option.isNone_iff_eq_none.mpr d, Option.isNone_iff_eq_none.mpr e⟩⟩

theorem Readable.writes {s : String} (readable : Readable s) : Writes s (.symbol s) := by
  refine ⟨readable.named, readable.unmarked, ?_⟩
  simp [ofItem, readable.noInteger, readable.noFloat, readable.noConstant]

theorem writes_constant {text : String} {v : Value} (known : (text, v) ∈
    [("#t", Value.bool true), ("#f", .bool false), ("nil", .nil)]) : Writes text v := by
  simp only [List.mem_cons, Prod.mk.injEq, List.not_mem_nil, or_false] at known
  rcases known with ⟨rfl, rfl⟩ | ⟨rfl, rfl⟩ | ⟨rfl, rfl⟩
  · exact ⟨Token.isName_of_all (by decide) (by decide), by decide, rfl⟩
  · exact ⟨Token.isName_of_all (by decide) (by decide), by decide, rfl⟩
  · exact ⟨Token.isName_of_all (by decide) (by decide), by decide, rfl⟩

/-- Escaping is undone, and the quotes are taken off. -/
theorem resolveEscapes_escape (text : List Char) :
    resolveEscapes (text.flatMap escapeChar) = text := by
  induction text with
  | nil => rfl
  | cons c rest ih =>
    rw [List.flatMap_cons, escapeChar]
    split
    · simp [resolveEscapes, ih]
    · next plain =>
      have notEscape : c ≠ '\\' := fun same => plain (.inl same)
      simp [resolveEscapes, ih, notEscape]

theorem unescape_stringChars (text : String) :
    unescape (String.ofList (stringChars text.toList)) = text := by
  simp [unescape, stringChars, resolveEscapes_escape]

end Atom

end SmallLisp
