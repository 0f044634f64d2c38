import SmallLisp.Proofs.Reader.Grammar
import SmallLisp.Proofs.Reader.Splitting

/-! A line feed at the end of a text. It is a gap there, even after a comment or an item, unless
a string is not closed, and then there is none without it either. -/
namespace SmallLisp

variable {text rest more gap final : List Char}

theorem GapBefore.extend (line : ∀ c ∈ more.head?, c = '\n') (skipped : GapBefore rest gap) :
    GapBefore (rest ++ more) gap := by
  induction skipped with
  | nil => exact .nil
  | blank blank _ ih => exact .blank blank ih
  | @comment text gap within stop _ ih =>
    refine .comment within ?_ ih
    rw [← List.append_assoc]
    cases ended : gap ++ rest with
    | nil => exact line
    | cons c later =>
      rw [ended] at stop
      exact stop

namespace Token

variable {after : List Char} {pieces : List (List Char × Token)}

theorem Splits.extend (line : ∀ c ∈ more.head?, c = '\n')
    (splits : Splits after pieces final text) :
    Splits (after ++ more) pieces final (text ++ more) := by
  induction splits with
  | @last gap skipped =>
    rw [List.append_assoc]
    exact .last (skipped.extend line)
  | @next gap rest final t pieces skipped formed apart _ ih =>
    rw [List.append_assoc, List.append_assoc]
    refine .next ?_ formed apart ih
    rw [← List.append_assoc]
    exact skipped.extend line

theorem closes_lineFeed (closes : Closes (rest ++ ['\n'])) : Closes rest := by
  obtain ⟨inner, more, paired, same⟩ := closes
  -- what closes the string is no line feed, so it stands before it
  rcases List.eq_nil_or_concat more with rfl | ⟨before, c, rfl⟩
  · exact absurd (List.append_inj' same rfl).2 (by decide)
  · refine ⟨inner, before, paired, ?_⟩
    have whole : rest ++ ['\n'] = (inner ++ '"' :: before) ++ [c] := by simpa using same
    exact (List.append_inj' whole rfl).1

/-- The tokens are the same, and a string that is not closed is not closed by it. -/
theorem lex_lineFeed (text : List Char) :
    (lex (text ++ ['\n'])).1 = (lex text).1 ∧
      (lex (text ++ ['\n'])).2.isSome = (lex text).2.isSome := by
  have line : ∀ c ∈ ['\n'].head?, c = '\n' := by simp
  have found := splits_lex text
  generalize same : lex text = scanned at found
  obtain ⟨tokens, fault⟩ := scanned
  cases fault with
  | none =>
    obtain ⟨pieces, final, splits, rfl⟩ := found
    have blank : lex ['\n'] = ([], none) := lex_finalGap (.closed (.blank (by decide) .nil))
    have longer := (splits.extend line).lexes (stops_cons (by decide) [])
    rw [List.nil_append, blank, List.append_nil] at longer
    rw [longer]
    exact ⟨rfl, rfl⟩
  | some raw =>
    obtain ⟨pieces, gap, rest, splits, unclosed⟩ := found
    obtain ⟨raw', lexed, -⟩ := splits.lexes_unclosed unclosed
    obtain ⟨raw'', lexed', -⟩ := Splits.lexes_unclosed (splits.extend line)
      fun closes => unclosed (closes_lineFeed closes)
    rw [lexed', ← same, lexed]
    exact ⟨rfl, rfl⟩

end Token

/-- What a text is read as does not depend on a line feed at its end, but for what is said of a
string that is not closed. -/
theorem read_lineFeed (line : String) :
    read (line ++ "\n") = read line ∨ ∃ raw raw',
      read (line ++ "\n") = .error (.erroneousToken raw') ∧ read line = .error (.erroneousToken raw) := by
  have same := Token.lex_lineFeed line.toList
  have shown : (line ++ "\n").toList = line.toList ++ ['\n'] := String.toList_append
  simp only [read, Token.tokenize, shown]
  generalize Token.lex (line.toList ++ ['\n']) = longer at same ⊢
  generalize Token.lex line.toList = lexed at same ⊢
  obtain ⟨tokens, fault⟩ := lexed
  obtain ⟨tokens', fault'⟩ := longer
  obtain ⟨rfl, closed⟩ := same
  cases fault with
  | none =>
    obtain rfl : fault' = none := by simpa using closed
    exact .inl rfl
  | some raw =>
    obtain ⟨raw', rfl⟩ := Option.isSome_iff_exists.mp closed
    exact .inr ⟨raw, raw', rfl, rfl⟩

/-- Integers that can be counted out are read, whatever else fails. -/
theorem build_ne_tooManyDigits {tokens : List Token} (countable : Token.Countable tokens)
    (done : List Value) (p : Pending) (n : Nat) :
    (build done p tokens).2 ≠ some (.tooManyDigits n) := by
  induction tokens generalizing done p with
  | nil =>
    rw [build, Pending.cutOff]
    split
    · split <;> [skip; split] <;> simp
    · simp
  | cons t rest ih =>
    have later := ih countable.tail
    have step := Pending.fed_feed p t
    generalize fed : p.feed t = result at step
    cases step with
    | closes | adds =>
      rw [build_add fed]
      exact later _ _
    | opens | marks =>
      rw [build, fed]
      exact later _ _
    | opensTooDeep | unquotes | closesNothing =>
      rw [build, fed]
      simp
    | meansNothing _ unmade =>
      obtain ⟨negative, digits, integer, long, -⟩ := Atom.ofItem_error unmade
      exact absurd (countable _ List.mem_cons_self negative digits integer) (Nat.not_le_of_lt long)

theorem read_ne_tooManyDigits {text : String}
    (countable : Token.Countable (Token.lex text.toList).1) (n : Nat) :
    read text ≠ .error (.tooManyDigits n) := by
  intro failed
  rw [read] at failed
  cases found : Token.tokenize text with
  | error e =>
    rw [found] at failed
    cases failed
    simp only [Token.tokenize] at found
    split at found
    · cases found
    · split at found <;> [skip; split at found] <;> cases found
  | ok tokens =>
    rw [found] at failed
    obtain ⟨nonempty, -⟩ := Token.of_tokenize_ok found
    have lexed : (Token.lex text.toList).1 = tokens := congrArg Prod.fst (Token.lex_of_tokenize found)
    subst lexed
    exact build_ne_tooManyDigits countable [] .start n
      (TokenStream.build_of_expression_error nonempty failed)

/-- Only where there is nothing to read is the expression missing. -/
theorem finalGap_of_read {text : String} (failed : read text = .error .emptyExpression) :
    FinalGap text.toList := by
  rw [read] at failed
  cases found : Token.tokenize text with
  | ok tokens =>
    rw [found] at failed
    exact absurd failed (expressions_of_tokenize found (.inr rfl)).2
  | error e =>
    rw [found] at failed
    cases failed
    simp only [Token.tokenize] at found
    split at found
    · cases found
    · next tokens lexed =>
      split at found
      · next empty =>
        rw [List.isEmpty_iff.mp empty, Token.lex_eq] at lexed
        split at lexed
        · next ended => exact (Token.gapBefore_of_ended ended).final
        · cases lexed
        · cases lexed
      · split at found <;> cases found

end SmallLisp
