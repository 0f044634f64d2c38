import SmallLisp.Proofs.Reader.Gap

/-! Texts taken apart into gaps and tokens. There is one way to take a text apart, if there is
any, and scanning finds it: nothing is lost, and no item is broken up. If there is none then some
string is not closed, and scanning stops at its quote. -/
namespace SmallLisp

namespace Token

def isItem : Token → Bool
  | .item _ => true
  | _ => false

/-- The lexeme is as it must be for a token of its kind. -/
def Formed : Token → Prop
  | .lparen => lexeme .lparen = "("
  | .rparen => lexeme .rparen = ")"
  | .string raw => ∃ text, Paired text ∧ raw.toList = '"' :: text ++ ['"']
  | .item text => IsName text

/-- The text before `after` taken apart: gaps, each with the token that follows it, and a last
gap. Between two items there is a gap, so that an item cannot be broken up. -/
inductive Splits (after : List Char) : List (List Char × Token) → List Char → List Char → Prop where
  | last {gap : List Char} : GapBefore after gap → Splits after [] gap (gap ++ after)
  | next {gap rest final : List Char} {t : Token} {pieces : List (List Char × Token)} :
      GapBefore (t.lexeme.toList ++ rest) gap → t.Formed →
      (∀ piece ∈ pieces.head?, t.isItem → piece.2.isItem → piece.1 ≠ []) →
      Splits after pieces final rest →
      Splits after ((gap, t) :: pieces) final (gap ++ (t.lexeme.toList ++ rest))

/-- After an opening quote: there is a quote that closes the string. -/
def Closes (rest : List Char) : Prop := ∃ inner more, Paired inner ∧ rest = inner ++ '"' :: more

variable {after text rest gap final final' : List Char} {t : Token}
  {pieces pieces' : List (List Char × Token)}

/-- The character that a token begins with is no part of a gap, and tells items from the rest. -/
theorem Formed.head (formed : t.Formed) : ∃ c more, t.lexeme.toList = c :: more ∧
    Text.isBlank c = false ∧ c ≠ ';' ∧ isItemChar c = t.isItem := by
  cases t with
  | lparen => exact ⟨'(', [], by decide⟩
  | rparen => exact ⟨')', [], by decide⟩
  | string raw =>
    obtain ⟨text, -, same⟩ := formed
    exact ⟨'"', text ++ ['"'], by rw [lexeme, same, List.cons_append], rfl, by decide, rfl⟩
  | item text =>
    obtain ⟨nonempty, each⟩ := formed
    obtain ⟨c, more, same⟩ := List.exists_cons_of_ne_nil nonempty
    obtain ⟨solid, plain⟩ := each c (by simp [same])
    have code : c ≠ ';' := fun eq => plain (by simp [eq])
    exact ⟨c, more, same, solid, code, (isItemChar_iff c).mpr ⟨solid, plain⟩⟩

theorem Formed.stops (formed : t.Formed) (other : t.isItem = false) (rest : List Char) :
    Stops (t.lexeme.toList ++ rest) := by
  obtain ⟨c, more, same, -, -, kind⟩ := formed.head
  rw [same, List.cons_append]
  exact stops_cons (kind.trans other) _

theorem scan_before (skipped : GapBefore rest gap) : scan (gap ++ rest) = scan rest := by
  rw [scan, scan, skipGap_before skipped]

/-- A token is found where it begins, an item only if it does not go on. -/
theorem Formed.scans (formed : t.Formed) (stop : t.isItem → Stops rest) :
    scan (t.lexeme.toList ++ rest) = .token t rest := by
  cases t with
  | lparen => simp [scan, lexeme, skipGap_cons (by decide : Text.isBlank '(' = false)]
  | rparen => simp [scan, lexeme, skipGap_cons (by decide : Text.isBlank ')' = false)]
  | string raw =>
    obtain ⟨text, paired, same⟩ := formed
    have scanned := scan_paired paired rest
    rw [← same, String.ofList_toList] at scanned
    rw [lexeme, same]
    simpa using scanned
  | item text => exact scan_item formed (stop rfl)

/-- Before what does not begin with an item, no item goes on. -/
theorem Splits.stops (splits : Splits after pieces final text) (stop : Stops after)
    (apart : ∀ piece ∈ pieces.head?, piece.2.isItem → piece.1 ≠ []) : Stops text := by
  cases splits with
  | last skipped => exact stops_before skipped fun _ => stop
  | next skipped formed _ _ =>
    refine stops_before skipped fun none => formed.stops ?_ _
    exact eq_false_of_ne_true fun item => apart _ rfl item none

theorem Splits.scans (splits : Splits after ((gap, t) :: pieces) final text) (stop : Stops after) :
    ∃ rest, text = gap ++ (t.lexeme.toList ++ rest) ∧ Splits after pieces final rest ∧
      scan text = .token t rest := by
  cases splits with
  | next skipped formed apart later =>
    refine ⟨_, rfl, later, (scan_before skipped).trans (formed.scans fun item => ?_)⟩
    exact later.stops stop fun piece first => apart piece first item

/-- Whatever way a text can be taken apart, the scanner finds these tokens. -/
theorem Splits.lexes (splits : Splits after pieces final text) (stop : Stops after) :
    lex text = (pieces.map Prod.snd ++ (lex after).1, (lex after).2) := by
  induction pieces generalizing text with
  | nil =>
    cases splits with
    | last skipped => rw [lex_eq, scan_before skipped, ← lex_eq]; rfl
  | cons piece pieces ih =>
    obtain ⟨rest, -, later, found⟩ := splits.scans stop
    rw [lex_of_scan found, ih later]
    rfl

theorem stops_nil : Stops [] := nofun

theorem scan_gap (skipped : GapBefore [] gap) : scan (gap ++ []) = .ended :=
  scan_before skipped

theorem Splits.unique (splits : Splits [] pieces final text) (splits' : Splits [] pieces' final' text) :
    pieces = pieces' ∧ final = final' := by
  induction pieces generalizing text pieces' with
  | nil =>
    cases splits with
    | last skipped =>
      cases pieces' with
      | nil =>
        generalize same : final ++ [] = text at splits'
        cases splits' with
        | last _ => exact ⟨rfl, List.append_cancel_right same⟩
      | cons piece pieces' =>
        obtain ⟨rest, -, -, found⟩ := splits'.scans stops_nil
        rw [scan_gap skipped] at found
        cases found
  | cons piece pieces ih =>
    obtain ⟨rest, whole, later, found⟩ := splits.scans stops_nil
    cases pieces' with
    | nil =>
      cases splits' with
      | last skipped =>
        rw [scan_gap skipped] at found
        cases found
    | cons piece' pieces' =>
      obtain ⟨rest', whole', later', found'⟩ := splits'.scans stops_nil
      rw [found] at found'
      obtain ⟨sameToken, sameRest⟩ := Scan.token.inj found'
      subst sameRest
      obtain ⟨samePieces, sameFinal⟩ := ih later later'
      rw [whole, sameToken] at whole'
      have sameGap : piece.1 = piece'.1 := List.append_cancel_right whole'
      exact ⟨by rw [samePieces, Prod.ext sameGap sameToken], sameFinal⟩

mutual

/-- What is skipped is a gap. -/
theorem gapBefore_skipGap : (text : List Char) →
    ∃ gap, text = gap ++ skipGap text ∧ GapBefore (skipGap text) gap
  | [] => ⟨[], rfl, .nil⟩
  | c :: text => by
    rw [skipGap]
    split
    · next blank =>
      obtain ⟨gap, same, skipped⟩ := gapBefore_skipGap text
      exact ⟨c :: gap, congrArg (c :: ·) same, .blank blank skipped⟩
    · split
      · next code =>
        subst code
        obtain ⟨inner, gap, same, within, stop, skipped⟩ := gapBefore_skipComment text
        refine ⟨';' :: inner ++ gap, ?_, .comment within stop skipped⟩
        rw [List.append_assoc, List.cons_append, ← same]
      · exact ⟨[], rfl, .nil⟩

theorem gapBefore_skipComment : (text : List Char) →
    ∃ inner gap, text = inner ++ (gap ++ skipComment text) ∧ '\n' ∉ inner ∧
      (∀ c ∈ (gap ++ skipComment text).head?, c = '\n') ∧ GapBefore (skipComment text) gap
  | [] => ⟨[], [], rfl, nofun, nofun, .nil⟩
  | c :: text => by
    rw [skipComment]
    split
    · next line =>
      subst line
      obtain ⟨gap, same, skipped⟩ := gapBefore_skipGap text
      exact ⟨[], '\n' :: gap, congrArg ('\n' :: ·) same, nofun, by simp,
        .blank (by decide) skipped⟩
    · next other =>
      obtain ⟨inner, gap, same, within, stop, skipped⟩ := gapBefore_skipComment text
      exact ⟨c :: inner, gap, congrArg (c :: ·) same, by simp [within, Ne.symm other], stop, skipped⟩

end

/-- A backslash is the first of a pair or the last character. -/
theorem not_escape {c : Char} (noEnd : c = '\\' → text = [] → False)
    (noPair : ∀ d more, c = '\\' → text = d :: more → False) : c ≠ '\\' := by
  intro escape
  cases text with
  | nil => exact noEnd escape rfl
  | cons d more => exact noPair d more escape rfl

theorem paired_of_scanString {seen raw : List Char} (closed : scanString seen text = .ok (raw, rest)) :
    ∃ inner, Paired inner ∧ text = inner ++ '"' :: rest ∧ raw = seen.reverse ++ inner ++ ['"'] := by
  fun_induction scanString seen text with
  | case1 => cases closed
  | case2 seen rest => cases closed; exact ⟨[], .nil, rfl, by simp⟩
  | case3 => cases closed
  | case4 seen c text ih =>
    obtain ⟨inner, paired, rfl, rfl⟩ := ih closed
    exact ⟨_, .pair c paired, rfl, by simp⟩
  | case5 seen c text noQuote noEnd noEscape ih =>
    obtain ⟨inner, paired, rfl, rfl⟩ := ih closed
    exact ⟨_, .plain (not_escape noEnd noEscape) noQuote paired, rfl, by simp⟩

theorem paired_of_scanString_error {seen raw : List Char} (open_ : scanString seen text = .error raw) :
    ∃ inner, Paired inner ∧ (text = inner ∨ text = inner ++ ['\\']) ∧ raw = seen.reverse ++ inner := by
  fun_induction scanString seen text with
  | case1 seen => cases open_; exact ⟨[], .nil, .inl rfl, by simp⟩
  | case2 => cases open_
  | case3 seen => cases open_; exact ⟨[], .nil, .inr rfl, by simp⟩
  | case4 seen c text ih =>
    obtain ⟨inner, paired, same, rfl⟩ := ih open_
    exact ⟨_, .pair c paired, by simpa using same, by simp⟩
  | case5 seen c text noQuote noEnd noEscape ih =>
    obtain ⟨inner, paired, same, rfl⟩ := ih open_
    exact ⟨_, .plain (not_escape noEnd noEscape) noQuote paired, by simpa using same, by simp⟩

theorem closes_iff : Closes rest ↔ ∃ raw more, scanString ['"'] rest = .ok (raw, more) := by
  constructor
  · rintro ⟨inner, more, paired, rfl⟩
    exact ⟨_, more, scanString_paired paired _ _⟩
  · rintro ⟨raw, more, closed⟩
    obtain ⟨inner, paired, rfl, -⟩ := paired_of_scanString closed
    exact ⟨inner, more, paired, rfl⟩

/-- No quote closes a string in what is all pairs and plain characters. -/
theorem Paired.not_closes (paired : Paired text) : ¬ Closes text := by
  rintro ⟨inner, more, paired', same⟩
  induction paired generalizing inner with
  | nil => simp at same
  | pair c _ ih =>
    cases paired' with
    | nil => simp at same
    | pair _ later => exact ih _ later (by simpa using (List.cons.inj (List.cons.inj same).2).2)
    | plain noEscape _ _ => exact noEscape (List.cons.inj same).1.symm
  | plain noEscape noQuote _ ih =>
    cases paired' with
    | nil => exact noQuote (List.cons.inj same).1
    | pair _ _ => exact noEscape (List.cons.inj same).1
    | plain _ _ later => exact ih _ later (List.cons.inj same).2

/-- What is reported of a string that is not closed, where `rest` is what follows its quote: all
of it, but for a last backslash that makes no pair. -/
def Reports (rest : List Char) (raw : String) : Prop :=
  ∃ inner, Paired inner ∧ (rest = inner ∨ rest = inner ++ ['\\']) ∧ raw = String.ofList ('"' :: inner)

theorem lex_unclosed (unclosed : ¬ Closes rest) :
    ∃ raw, lex ('"' :: rest) = ([], some raw) ∧ Reports rest raw := by
  rw [closes_iff] at unclosed
  cases scanned : scanString ['"'] rest with
  | ok closed => exact absurd ⟨_, _, scanned⟩ unclosed
  | error seen =>
    obtain ⟨inner, paired, same, rfl⟩ := paired_of_scanString_error scanned
    have found : scan ('"' :: rest) = .unterminated (String.ofList ('"' :: inner)) := by
      rw [scan, skipGap_cons (by decide) (by decide)]
      simp [scanned]
    refine ⟨_, ?_, inner, paired, same, rfl⟩
    rw [lex_eq, found]

/-- A token that is found stands after a gap, and is as long as it can be. -/
theorem formed_of_scan (found : scan text = .token t rest) :
    ∃ gap, text = gap ++ (t.lexeme.toList ++ rest) ∧ GapBefore (t.lexeme.toList ++ rest) gap ∧
      t.Formed ∧ (t.isItem → Stops rest) := by
  obtain ⟨gap, same, skipped⟩ := gapBefore_skipGap text
  have named := named_of_scan found
  suffices left : skipGap text = t.lexeme.toList ++ rest ∧ t.Formed ∧ (t.isItem → Stops rest) by
    rw [left.1] at same skipped
    exact ⟨gap, same, skipped, left.2⟩
  simp only [scan] at found
  split at found
  · cases found
  · next left => cases found; exact ⟨left, rfl, by simp [isItem]⟩
  · next left => cases found; exact ⟨left, rfl, by simp [isItem]⟩
  · next left =>
    split at found
    · next scanned =>
      cases found
      obtain ⟨inner, paired, rfl, rfl⟩ := paired_of_scanString scanned
      exact ⟨by simp [left, lexeme], ⟨inner, paired, by simp⟩, by simp [isItem]⟩
    · cases found
  · next c after _ _ _ left =>
    cases found
    refine ⟨?_, named, fun _ d head => ?_⟩
    · rw [left, lexeme, String.toList_ofList, List.cons_append, List.takeWhile_append_dropWhile]
    · have stopped := List.head?_dropWhile_not isItemChar after
      rw [Option.mem_def] at head
      rw [head] at stopped
      simpa using stopped

/-- An item that goes no further has a gap before the next one. -/
theorem Splits.apart (splits : Splits after pieces final text) (stop : Stops text) :
    ∀ piece ∈ pieces.head?, piece.2.isItem → piece.1 ≠ [] := by
  intro piece first item none
  cases splits with
  | last => cases first
  | @next gap rest final t pieces _ formed =>
    cases first
    obtain rfl : gap = [] := none
    obtain ⟨c, more, same, -, -, kind⟩ := formed.head
    rw [List.nil_append, same, List.cons_append] at stop
    have stopped := stop c rfl
    rw [kind, item] at stopped
    cases stopped

theorem gapBefore_of_ended (ended : scan text = .ended) : GapBefore [] text := by
  obtain ⟨gap, same, skipped⟩ := gapBefore_skipGap text
  simp only [scan] at ended
  split at ended
  · next nothing =>
    rw [nothing] at same skipped
    rw [same, List.append_nil]
    exact skipped
  · cases ended
  · cases ended
  · split at ended <;> cases ended
  · cases ended

theorem unclosed_of_scan {raw : String} (found : scan text = .unterminated raw) :
    ∃ gap rest, text = gap ++ '"' :: rest ∧ GapBefore ('"' :: rest) gap ∧ ¬ Closes rest := by
  obtain ⟨gap, same, skipped⟩ := gapBefore_skipGap text
  simp only [scan] at found
  split at found
  · cases found
  · cases found
  · cases found
  · next rest left =>
    rw [left] at same skipped
    refine ⟨gap, rest, same, skipped, fun closes => ?_⟩
    obtain ⟨closed, more, scanned⟩ := closes_iff.mp closes
    rw [scanned] at found
    cases found
  · cases found

/-- The pieces that the scanner finds, up to the end of the text or to a quote that nothing
closes. -/
theorem splits_lex (text : List Char) : match lex text with
    | (tokens, none) => ∃ pieces final, Splits [] pieces final text ∧ pieces.map Prod.snd = tokens
    | (_, some _) => ∃ pieces gap rest, Splits ('"' :: rest) pieces gap text ∧ ¬ Closes rest := by
  fun_induction lex text with
  | case1 text ended =>
    have whole := Splits.last (gapBefore_of_ended ended)
    rw [List.append_nil] at whole
    exact ⟨[], text, whole, rfl⟩
  | case2 text raw found =>
    obtain ⟨gap, rest, same, skipped, unclosed⟩ := unclosed_of_scan found
    exact ⟨[], gap, rest, same ▸ .last skipped, unclosed⟩
  | case3 text t rest found tokens fault lexed ih =>
    obtain ⟨gap, same, skipped, formed, stop⟩ := formed_of_scan found
    rw [lexed] at ih
    subst same
    cases fault with
    | none =>
      obtain ⟨pieces, final, later, rfl⟩ := ih
      refine ⟨(gap, t) :: pieces, final, .next skipped formed ?_ later, rfl⟩
      exact fun piece first item => later.apart (stop item) piece first
    | some raw =>
      obtain ⟨pieces, final, rest', later, unclosed⟩ := ih
      refine ⟨(gap, t) :: pieces, final, rest', .next skipped formed ?_ later, unclosed⟩
      exact fun piece first item => later.apart (stop item) piece first

theorem Splits.lexes_unclosed (splits : Splits ('"' :: rest) pieces gap text)
    (unclosed : ¬ Closes rest) :
    ∃ raw, lex text = (pieces.map Prod.snd, some raw) ∧ Reports rest raw := by
  obtain ⟨raw, lexed, reports⟩ := lex_unclosed unclosed
  refine ⟨raw, ?_, reports⟩
  rw [splits.lexes (stops_cons (by decide) rest), lexed, List.append_nil]

/-- Scanning loses nothing and splits nothing. A text that it goes through is taken apart into the
tokens that are found and the gaps around them, and in no other way into tokens and gaps at all. It
stops in exactly the texts in which a quote, outside of comments and of strings before it, begins a
string that nothing closes. The tokens before that quote have been found then, and what is reported
is the text from the quote on, but for a last backslash that makes no pair. -/
theorem lex_takes_apart (text : List Char) :
    ((lex text).2 = none → ∃ pieces final, Splits [] pieces final text ∧
      pieces.map Prod.snd = (lex text).1 ∧
      ∀ pieces' final', Splits [] pieces' final' text → pieces' = pieces ∧ final' = final) ∧
    ((lex text).2 ≠ none ↔
      ∃ pieces gap rest, Splits ('"' :: rest) pieces gap text ∧ ¬ Closes rest) ∧
    ∀ pieces gap rest, Splits ('"' :: rest) pieces gap text → ¬ Closes rest →
      pieces.map Prod.snd = (lex text).1 ∧ ∃ raw, (lex text).2 = some raw ∧ Reports rest raw := by
  refine ⟨fun whole => ?_, ⟨fun broken => ?_, ?_⟩, fun pieces gap rest splits unclosed => ?_⟩
  · have found := splits_lex text
    generalize lex text = scanned at whole found
    obtain ⟨tokens, fault⟩ := scanned
    cases whole
    obtain ⟨pieces, final, splits, same⟩ := found
    exact ⟨pieces, final, splits, same, fun _ _ splits' => splits'.unique splits⟩
  · have found := splits_lex text
    generalize lex text = scanned at broken found
    obtain ⟨tokens, fault⟩ := scanned
    cases fault with
    | none => exact absurd rfl broken
    | some raw => exact found
  · rintro ⟨pieces, gap, rest, splits, unclosed⟩
    obtain ⟨raw, lexed, -⟩ := splits.lexes_unclosed unclosed
    rw [lexed]
    exact Option.some_ne_none raw
  · obtain ⟨raw, lexed, reports⟩ := splits.lexes_unclosed unclosed
    rw [lexed]
    exact ⟨rfl, raw, rfl, reports⟩

/-- An item, a string with all kinds of delimiters in it, and a comment with a quote, all of them
side by side. Then a quote that nothing closes, after a closed string. -/
theorem lex_takes_apart_glued :
    let good := "a\"b;\\\"(\";\"\n c".toList
    let tokens := [Token.item "a", .string "\"b;\\\"(\"", .item "c"]
    let bad := "(\"x\" \"y\\".toList
    let pieces := [([], Token.lparen), ([], .string "\"x\"")]
    (∃ pieces final, Splits [] pieces final good ∧ pieces.map Prod.snd = tokens ∧
      ∀ pieces' final', Splits [] pieces' final' good → pieces' = pieces ∧ final' = final) ∧
    Splits ('"' :: ['y', '\\']) pieces [' '] bad ∧ ¬ Closes ['y', '\\'] ∧
    pieces.map Prod.snd = (lex bad).1 ∧
    ∃ raw, (lex bad).2 = some raw ∧ Reports ['y', '\\'] raw := by
  intro good tokens bad pieces
  have lexed : lex good = (tokens, none) := by decide +kernel
  have unclosed : ¬ Closes ['y', '\\'] := by
    rw [closes_iff]
    rintro ⟨raw, more, scanned⟩
    cases scanned
  have space : GapBefore ('"' :: ['y', '\\']) [' '] := .blank (by decide) .nil
  have string : Formed (.string "\"x\"") :=
    ⟨['x'], .plain (by decide) (by decide) .nil, by decide⟩
  have splits : Splits ('"' :: ['y', '\\']) pieces [' '] bad :=
    .next .nil rfl nofun (.next .nil string nofun (.last space))
  obtain ⟨whole, -, -⟩ := lex_takes_apart good
  obtain ⟨-, -, broken⟩ := lex_takes_apart bad
  rw [lexed] at whole
  exact ⟨whole rfl, splits, unclosed, broken pieces [' '] _ splits unclosed⟩

end Token

end SmallLisp
