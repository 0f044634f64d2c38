import SmallLisp.Proofs.Reader.Names
import SmallLisp.Proofs.Text.Row
import SmallLisp.Value.Printer

/-! The scanner on texts whose tokens are known. A gap is skipped whatever is in it, and a
token ends where its own text does, if what follows cannot be a part of it. -/
namespace SmallLisp

/-- Blanks, and comments with the line feed that ends each of them. -/
inductive Gap : List Char → Prop where
  | nil : Gap []
  | blank {c : Char} {gap : List Char} : Text.isBlank c = true → Gap gap → Gap (c :: gap)
  | comment {text gap : List Char} : '\n' ∉ text → Gap gap → Gap (';' :: text ++ '\n' :: gap)

/-- The gap at the end of a text may break off inside a comment. -/
inductive FinalGap : List Char → Prop where
  | closed {gap : List Char} : Gap gap → FinalGap gap
  | opened {gap text : List Char} : Gap gap → '\n' ∉ text → FinalGap (gap ++ ';' :: text)

/-- Blanks and comments with `rest` after them. A comment goes on up to the next line feed, which
is no part of it, or to the end of the text. -/
inductive GapBefore (rest : List Char) : List Char → Prop where
  | nil : GapBefore rest []
  | blank {c : Char} {gap : List Char} : Text.isBlank c = true → GapBefore rest gap →
      GapBefore rest (c :: gap)
  | comment {text gap : List Char} : '\n' ∉ text → (∀ c ∈ (gap ++ rest).head?, c = '\n') →
      GapBefore rest gap → GapBefore rest (';' :: text ++ gap)

section

variable {gap gap' rest : List Char}

theorem GapBefore.append (first : GapBefore (gap' ++ rest) gap) (second : GapBefore rest gap') :
    GapBefore rest (gap ++ gap') := by
  induction first with
  | nil => exact second
  | blank blank _ ih => exact .blank blank ih
  | @comment text gap within stop _ ih =>
    have whole : GapBefore rest (';' :: text ++ (gap ++ gap')) :=
      .comment within (by rwa [List.append_assoc]) ih
    rwa [← List.append_assoc] at whole

/-- A line feed ends all comments, so what follows it does not matter. -/
theorem Gap.before (skipped : Gap gap) (rest : List Char) : GapBefore rest gap := by
  induction skipped with
  | nil => exact .nil
  | blank blank _ ih => exact .blank blank ih
  | comment within _ ih => exact .comment within (by simp) (.blank (by decide) ih)

theorem FinalGap.before (skipped : FinalGap gap) : GapBefore [] gap := by
  cases skipped with
  | closed skipped => exact skipped.before []
  | @opened gap text skipped within =>
    have last : GapBefore [] (';' :: text ++ []) := .comment within nofun .nil
    rw [List.append_nil] at last
    exact (skipped.before _).append last

theorem FinalGap.blank {c : Char} (blank : Text.isBlank c = true) (skipped : FinalGap gap) :
    FinalGap (c :: gap) := by
  cases skipped with
  | closed skipped => exact .closed (.blank blank skipped)
  | opened skipped within => exact .opened (.blank blank skipped) within

theorem FinalGap.comment {text : List Char} (within : '\n' ∉ text)
    (stop : ∀ c ∈ gap.head?, c = '\n') (skipped : FinalGap gap) :
    FinalGap (';' :: text ++ gap) := by
  cases skipped with
  | closed skipped =>
    cases skipped with
    | nil =>
      rw [List.append_nil]
      exact .opened .nil within
    | blank blank skipped =>
      obtain rfl := stop _ rfl
      exact .closed (.comment within skipped)
    | comment => cases stop ';' rfl
  | @opened gap last skipped within' =>
    cases skipped with
    | nil => cases stop ';' rfl
    | blank blank skipped =>
      obtain rfl := stop _ rfl
      have whole := FinalGap.opened (.comment within skipped) within'
      simpa using whole
    | comment => cases stop ';' rfl

theorem GapBefore.final (skipped : GapBefore [] gap) : FinalGap gap := by
  induction skipped with
  | nil => exact .closed .nil
  | blank blank _ ih => exact ih.blank blank
  | comment within stop _ ih =>
    rw [List.append_nil] at stop
    exact ih.comment within stop

end

namespace Token

variable {gap text rest : List Char} {t : Token}

theorem isBlank_semicolon : Text.isBlank ';' = false := by decide

/-- A comment ends before a line feed or with the text, and there the gap goes on. -/
theorem skipComment_append (within : '\n' ∉ text) (stop : ∀ c ∈ rest.head?, c = '\n') :
    skipComment (text ++ rest) = skipGap rest := by
  induction text with
  | nil =>
    cases rest with
    | nil => rfl
    | cons c rest =>
      obtain rfl := stop c rfl
      have blank : Text.isBlank '\n' = true := by decide
      simp [skipComment, skipGap, blank]
  | cons c text ih =>
    obtain ⟨other, within⟩ := List.ne_and_not_mem_of_not_mem_cons within
    simp [skipComment, Ne.symm other, ih within]

theorem skipGap_before (skipped : GapBefore rest gap) : skipGap (gap ++ rest) = skipGap rest := by
  induction skipped with
  | nil => rfl
  | blank blank _ ih => simp [skipGap, blank, ih]
  | comment within stop _ ih =>
    rw [List.cons_append, List.cons_append, List.append_assoc, skipGap]
    simp [isBlank_semicolon, skipComment_append within stop, ih]

theorem skipGap_append (skipped : Gap gap) (rest : List Char) :
    skipGap (gap ++ rest) = skipGap rest := skipGap_before (skipped.before rest)

theorem skipGap_eq_nil (skipped : FinalGap gap) : skipGap gap = [] := by
  have ended := skipGap_before skipped.before
  rwa [List.append_nil] at ended

/-- A character that begins no gap stays. -/
theorem skipGap_cons {c : Char} (solid : Text.isBlank c = false) (code : c ≠ ';')
    (rest : List Char) : skipGap (c :: rest) = c :: rest := by
  simp [skipGap, solid, code]

/-- No item goes on here. -/
def Stops (rest : List Char) : Prop := ∀ c ∈ rest.head?, isItemChar c = false

theorem stops_cons {c : Char} (stop : isItemChar c = false) (rest : List Char) :
    Stops (c :: rest) := by
  intro d head
  cases head
  exact stop

/-- What begins a gap is no part of an item. -/
theorem stops_before (skipped : GapBefore rest gap) (stop : gap = [] → Stops rest) :
    Stops (gap ++ rest) := by
  cases skipped with
  | nil => exact stop rfl
  | blank blank _ => exact stops_cons (by simp [isItemChar, blank]) _
  | comment _ _ _ => exact stops_cons (by decide) _

theorem stops_gap (skipped : Gap gap) (nonempty : gap ≠ []) (rest : List Char) :
    Stops (gap ++ rest) := stops_before (skipped.before rest) fun empty => absurd empty nonempty

theorem stops_finalGap (skipped : FinalGap gap) : Stops gap := by
  have stop := stops_before skipped.before fun _ => nofun
  rwa [List.append_nil] at stop

theorem scan_item {s : String} (named : IsName s) (stop : Stops rest) :
    scan (s.toList ++ rest) = .token (.item s) rest := by
  obtain ⟨nonempty, each⟩ := named
  obtain ⟨c, more, same⟩ := List.exists_cons_of_ne_nil nonempty
  have items : ∀ d ∈ more, isItemChar d = true :=
    fun d member => (isItemChar_iff d).mpr (each d (by simp [same, member]))
  obtain ⟨solid, plain⟩ := each c (by simp [same])
  simp only [List.mem_cons, List.not_mem_nil, or_false, not_or] at plain
  obtain ⟨notOpen, notClose, notMark, code⟩ := plain
  rw [same, List.cons_append, scan, skipGap_cons solid code]
  split
  · next nothing => cases nothing
  · next first => exact absurd (List.cons.inj first).1 notOpen
  · next first => exact absurd (List.cons.inj first).1 notClose
  · next first => exact absurd (List.cons.inj first).1 notMark
  · next d after _ _ _ first =>
    cases first
    rw [Text.takeWhile_row items stop, Text.dropWhile_row items stop, ← same, String.ofList_toList]

/-- What may stand between the quotes of a string: a backslash makes a pair with the character
after it, and quotes and backslashes stand in pairs only. -/
inductive Paired : List Char → Prop where
  | nil : Paired []
  | pair (c : Char) {text : List Char} : Paired text → Paired ('\\' :: c :: text)
  | plain {c : Char} {text : List Char} : c ≠ '\\' → c ≠ '"' → Paired text → Paired (c :: text)

theorem paired_escape (text : List Char) : Paired (text.flatMap escapeChar) := by
  induction text with
  | nil => exact .nil
  | cons c text ih =>
    rw [List.flatMap_cons, escapeChar]
    split
    · exact .pair c ih
    · next plain =>
      rw [not_or] at plain
      exact .plain plain.1 plain.2 ih

theorem scanString_plain {c : Char} (noEscape : c ≠ '\\') (noQuote : c ≠ '"')
    (seen rest : List Char) : scanString seen (c :: rest) = scanString (c :: seen) rest := by
  rw [scanString]
  · exact noQuote
  · exact fun same _ => noEscape same
  · exact fun _ _ same _ => noEscape same

/-- A string reaches to the quote that closes it, whatever is escaped before. -/
theorem scanString_paired (paired : Paired text) (seen rest : List Char) :
    scanString seen (text ++ '"' :: rest) = .ok (seen.reverse ++ text ++ ['"'], rest) := by
  induction paired generalizing seen with
  | nil => simp [scanString]
  | pair c _ ih => simp [scanString, ih]
  | plain noEscape noQuote _ ih =>
    rw [List.cons_append, scanString_plain noEscape noQuote, ih]
    simp

theorem scan_paired (paired : Paired text) (rest : List Char) :
    scan ('"' :: (text ++ '"' :: rest)) =
      .token (.string (String.ofList ('"' :: text ++ ['"']))) rest := by
  rw [scan, skipGap_cons (by decide) (by decide)]
  simp [scanString_paired paired]

theorem scan_string (text rest : List Char) :
    scan (stringChars text ++ rest) = .token (.string (String.ofList (stringChars text))) rest := by
  have scanned := scan_paired (paired_escape text) rest
  simpa [stringChars] using scanned

theorem lex_eq (text : List Char) :
    lex text = match scan text with
      | .ended => ([], none)
      | .unterminated raw => ([], some raw)
      | .token t rest => (t :: (lex rest).1, (lex rest).2) := by
  rw [lex]
  split <;> simp [*]

theorem lex_of_scan (found : scan text = .token t rest) :
    lex text = (t :: (lex rest).1, (lex rest).2) := by
  rw [lex_eq, found]

theorem lex_gap (skipped : Gap gap) (rest : List Char) : lex (gap ++ rest) = lex rest := by
  rw [lex_eq, lex_eq rest, scan, scan, skipGap_append skipped]

theorem lex_finalGap (skipped : FinalGap gap) : lex gap = ([], none) := by
  rw [lex_eq, scan, skipGap_eq_nil skipped]

theorem lex_lparen (rest : List Char) :
    lex ('(' :: rest) = (.lparen :: (lex rest).1, (lex rest).2) := by
  apply lex_of_scan
  simp [scan, skipGap_cons (by decide : Text.isBlank '(' = false)]

theorem lex_rparen (rest : List Char) :
    lex (')' :: rest) = (.rparen :: (lex rest).1, (lex rest).2) := by
  apply lex_of_scan
  simp [scan, skipGap_cons (by decide : Text.isBlank ')' = false)]

end Token

end SmallLisp
