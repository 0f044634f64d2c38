import SmallLisp.Proofs.Reader.FirstExpression
import SmallLisp.Proofs.Reader.LineFeed

/-! Texts joined by line feeds. A line feed ends the comment or the item before it, so the tokens of
the whole are those of the parts; and reading an expression looks at no token after it, so what is
made of the parts is made of the whole. -/
namespace SmallLisp

namespace Token

/-- A line feed between two texts parts their tokens, if all strings of the first are closed. -/
theorem lex_line {text : List Char} (closed : (lex text).2 = none) (rest : List Char) :
    lex (text ++ '\n' :: rest) = ((lex text).1 ++ (lex rest).1, (lex rest).2) := by
  have found := splits_lex text
  generalize lex text = scanned at closed found
  obtain ⟨tokens, fault⟩ := scanned
  obtain rfl : fault = none := closed
  obtain ⟨pieces, final, splits, rfl⟩ := found
  have longer : Splits ('\n' :: rest) pieces final (text ++ '\n' :: rest) := by
    have line : ∀ c ∈ ('\n' :: rest).head?, c = '\n' := by simp
    simpa using splits.extend line
  have skipped : lex ('\n' :: rest) = lex rest := lex_gap (.blank (by decide) .nil) rest
  rw [longer.lexes (stops_cons (by decide) rest), skipped]

end Token

theorem TokenStream.finish_append {tokens later : List Token} {p : Pending} {v : Value}
    (read : (ofTokens tokens).finish p = (.ok v, ofTokens later)) (more : List Token) :
    (ofTokens (tokens ++ more)).finish p = (.ok v, ofTokens (later ++ more)) := by
  induction tokens generalizing p with
  | nil =>
    rw [finish_nil] at read
    cases read
  | cons t rest ih =>
    rw [List.cons_append]
    cases fed : p.feed t with
    | error e =>
      rw [finish_failed fed] at read
      cases read
    | ok step =>
      rw [finish_cons fed] at read ⊢
      cases step with
      | done w =>
        cases read
        rfl
      | more p' => exact ih read

/-- What is read without a failure is complete, and what comes after it is read as if it came
first. -/
theorem build_append {done : List Value} {p : Pending} {tokens : List Token}
    (read : (build done p tokens).2 = none) (more : List Token) :
    build done p (tokens ++ more) = build (build done p tokens).1.reverse .start more := by
  induction tokens generalizing done p with
  | nil =>
    obtain ⟨lists, marked⟩ := p
    have complete : lists = [] ∧ marked = false := by
      simpa [build, Pending.begun, and_comm] using read
    obtain ⟨rfl, rfl⟩ := complete
    simp [build, Pending.start]
  | cons t rest ih =>
    cases fed : p.feed t with
    | error e => simp [build, fed] at read
    | ok step =>
      cases step with
      | done v =>
        simp only [build, fed, List.cons_append] at read ⊢
        exact ih read
      | more p' =>
        simp only [build, fed, List.cons_append] at read ⊢
        exact ih read

/-- What a text is read as, with nothing in one that has no tokens. -/
inductive ReadsAs : String → List Value → Prop where
  | gap {text : String} : Token.lex text.toList = ([], none) → ReadsAs text []
  | expressions {text : String} {values : List Value} : readAll text = .ok values →
      ReadsAs text values

/-- The tokens of a text, which make these values and close what they open. -/
structure Token.Makes (text : String) (tokens : List Token) (values : List Value) : Prop where
  lexed : lex text.toList = (tokens, none)
  balanced : Balanced 0 tokens
  built : build [] .start tokens = (values, none)

section

variable {text : String} {tokens : List Token} {values : List Value}

theorem Token.makes_gap (lexed : lex text.toList = ([], none)) : Makes text [] [] :=
  ⟨lexed, rfl, rfl⟩

theorem Token.Makes.join {text' : String} {tokens' : List Token} {values' : List Value}
    (first : Makes text tokens values) (later : Makes text' tokens' values') :
    Makes (text ++ "\n" ++ text') (tokens ++ tokens') (values ++ values') where
  lexed := by
    have closed : (lex text.toList).2 = none := congrArg Prod.snd first.lexed
    have lexed := lex_line closed text'.toList
    rw [first.lexed, later.lexed] at lexed
    simpa using lexed
  balanced := by
    have inside := first.balanced
    have outside := later.balanced
    simp only [Balanced, List.count_append] at inside outside ⊢
    omega
  built := by
    have complete : (build [] .start tokens).2 = none := congrArg Prod.snd first.built
    rw [build_append complete, first.built, build_done, later.built, List.reverse_reverse]

theorem ReadsAs.makes (reads : ReadsAs text values) : ∃ tokens, Token.Makes text tokens values := by
  cases reads with
  | gap none => exact ⟨[], Token.makes_gap none⟩
  | expressions read =>
    cases found : Token.tokenize text with
    | error e =>
      rw [readAll_of_untokenized found] at read
      cases read
    | ok tokens =>
      refine ⟨tokens, Token.lex_of_tokenize found, (Token.of_tokenize_ok found).2, ?_⟩
      rw [readAll_of_tokenize found] at read
      generalize build [] .start tokens = result at read ⊢
      obtain ⟨made, failure⟩ := result
      cases failure <;> cases read
      rfl

theorem Token.Makes.readAll_eq (makes : Makes text tokens values) : readAll text =
    if tokens = [] then .error .emptyExpression else .ok values := by
  by_cases empty : tokens = []
  · rw [if_pos empty]
    exact readAll_of_untokenized (by simp [tokenize, makes.lexed, empty])
  · have balanced := makes.balanced
    rw [Balanced, Nat.zero_add] at balanced
    rw [if_neg empty, readAll_of_tokenize (tokenize_eq_ok makes.lexed empty balanced), makes.built]

end

theorem makes_joined {texts : List String} {values : List (List Value)}
    (each : List.Forall₂ ReadsAs texts values) :
    Token.Makes ("\n".intercalate texts) (texts.flatMap fun text => (Token.lex text.toList).1)
      values.flatten := by
  induction each with
  | nil => exact Token.makes_gap (by decide +kernel)
  | @cons text made texts values reads later ih =>
    obtain ⟨tokens, makes⟩ := reads.makes
    rw [List.flatMap_cons, makes.lexed, List.flatten_cons]
    cases later with
    | nil => simpa using makes
    | cons next later =>
      rw [String.intercalate_cons_cons]
      exact makes.join ih

/-- Texts that can be read, joined by line feeds, are read as what they are read as one after
another, and texts without tokens leave nothing to read. An expression is read no further than it
goes: tokens that are one are the same one whatever comes after them, and that is left. -/
theorem readAll_joined :
    (∀ texts values, List.Forall₂ ReadsAs texts values →
      readAll ("\n".intercalate texts) =
        if ∀ text ∈ texts, (Token.lex text.toList).1 = [] then .error .emptyExpression
        else .ok values.flatten) ∧
    ∀ tokens v, (TokenStream.ofTokens tokens).expression = (.ok v, .ofTokens []) → ∀ more,
      (TokenStream.ofTokens (tokens ++ more)).expression = (.ok v, .ofTokens more) := by
  refine ⟨fun texts values each => ?_, fun tokens v read more => TokenStream.finish_append read more⟩
  simp only [(makes_joined each).readAll_eq, List.flatMap_eq_nil_iff]

/-- An item and a comment that the line feed ends, a blank text, and a list after a quote mark. -/
theorem readAll_joined_commented :
    let texts := ["1 a;(", " ; \"", "'(b)"]
    let quoted := Value.list [.symbol "quote", .list [.symbol "b"]]
    let tokens := [Token.item "'", .lparen, .item "b", .rparen]
    List.Forall₂ ReadsAs texts [[.int 1, .symbol "a"], [], [quoted]] ∧
    readAll ("\n".intercalate texts) = .ok [.int 1, .symbol "a", quoted] ∧
    (TokenStream.ofTokens tokens).expression = (.ok quoted, .ofTokens []) ∧
    (TokenStream.ofTokens (tokens ++ [.rparen])).expression = (.ok quoted, .ofTokens [.rparen]) := by
  intro texts quoted tokens
  have atom (text : String) (v : Value) (unmarked : text ≠ Pending.quoteMark)
      (made : Atom.ofItem text = .ok v) : (Token.item text).Means v := .item unmarked made
  have first : readAll "1 a;(" = .ok [.int 1, .symbol "a"] := by
    have found : Token.tokenize "1 a;(" = .ok [.item "1", .item "a"] :=
      Token.tokenize_eq_ok (by decide +kernel) (by decide) (by decide)
    exact readAll_expressions found (Token.shallow_of_length (by decide))
      (.atom (atom _ _ (by decide) rfl) (.atom (atom _ _ (by decide) rfl) .nil))
  have last : readAll "'(b)" = .ok [quoted] := by
    have found : Token.tokenize "'(b)" = .ok tokens :=
      Token.tokenize_eq_ok (by decide +kernel) (by decide) (by decide)
    exact readAll_expressions found (Token.shallow_of_length (by decide))
      (.quoted (.atom (atom _ _ (by decide) rfl) .nil) .nil)
  have each : List.Forall₂ ReadsAs texts [[.int 1, .symbol "a"], [], [quoted]] :=
    .cons (.expressions first) (.cons (.gap (by decide +kernel)) (.cons (.expressions last) .nil))
  have whole : (TokenStream.ofTokens tokens).expression = (.ok quoted, .ofTokens []) := by
    have closed : Pending.feed ⟨[⟨true, [.symbol "b"]⟩], false⟩ .rparen = .ok (.done quoted) := rfl
    calc (TokenStream.ofTokens tokens).finish .start
      _ = (TokenStream.ofTokens [.lparen, .item "b", .rparen]).finish ⟨[], true⟩ :=
        TokenStream.finish_more rfl
      _ = (TokenStream.ofTokens [.item "b", .rparen]).finish ⟨[⟨true, []⟩], false⟩ :=
        TokenStream.finish_more rfl
      _ = (TokenStream.ofTokens [.rparen]).finish ⟨[⟨true, [.symbol "b"]⟩], false⟩ :=
        TokenStream.finish_more rfl
      _ = (.ok quoted, .ofTokens []) := TokenStream.finish_cons closed
  obtain ⟨joined, unchanged⟩ := readAll_joined
  refine ⟨each, ?_, whole, unchanged tokens quoted whole [.rparen]⟩
  rw [joined texts _ each, if_neg (by decide +kernel)]
  rfl

end SmallLisp
