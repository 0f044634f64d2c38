import SmallLisp.Proofs.Reader.FirstExpression
import SmallLisp.Session.Basic

/-! What of a snippet decides its evaluation. Its first expression is evaluated, and what is wrong
with the expressions after that one goes unnoticed: a quote mark with no list after it, or a
parenthesis that closes nothing. A string that is not closed, or parentheses in unequal number,
are noticed wherever they are. -/
namespace SmallLisp

/-- A snippet that is readable as a whole is evaluated as its first expression. If it is not, it
fails as reading does and nothing is done, unless its first expression can be read on its own: that
is evaluated then, whatever is wrong with the tokens after it. -/
theorem evaluateSource_takes_first_expression (source : String) (f : FrameId) (m : Machine) :
    (∀ values, readAll source = .ok values → ∃ v rest, values = v :: rest ∧
      evaluateSource source f m = (Eval.evaluate v f).adaptExcept .evaluation m) ∧
    ∀ e, readAll source = .error e →
      evaluateSource source f m = .error (.reading e) m ∧ read source = .error e ∨
      ∃ v first later, Token.tokenize source = .ok (first ++ later) ∧ Expressions first [v] ∧
        (TokenStream.ofTokens later).expressions.1.2 = some e ∧
        e ≠ .emptyExpression ∧ e ≠ .mismatchedParens ∧ read source = .ok v ∧
        evaluateSource source f m = (Eval.evaluate v f).adaptExcept .evaluation m := by
  cases made : read source with
  | error fault =>
    have all := readAll_of_read_error made
    have unread : evaluateSource source f m = .error (.reading fault) m := by
      rw [evaluateSource, made]
      rfl
    refine ⟨fun values readable => ?_, fun e failed => .inl ?_⟩
    · cases all.symm.trans readable
    · cases all.symm.trans failed
      exact ⟨unread, rfl⟩
  | ok v =>
    obtain ⟨first, later, found, expression, all⟩ := readAll_of_read made
    have evaluated : evaluateSource source f m = (Eval.evaluate v f).adaptExcept .evaluation m := by
      rw [evaluateSource, made]
    refine ⟨fun values readable => ?_, fun e failed => .inr ?_⟩
    · rw [readable] at all
      split at all
      · next rest _ =>
        cases all
        exact ⟨v, rest, rfl, evaluated⟩
      · cases all
    · have kind (other : e = .mismatchedParens ∨ e = .emptyExpression) : False := by
        have noticed := (readAll_eq_error_iff found).mp failed
        rw [← TokenStream.expressions_eq_build] at noticed
        exact (expressions_of_tokenize found other).1 noticed
      rw [failed] at all
      split at all
      · cases all
      · next read =>
        cases all
        exact ⟨v, first, later, found, expression, congrArg Prod.snd read,
          fun empty => kind (.inr empty), fun unequal => kind (.inl unequal), rfl, evaluated⟩

/-- The second expression is ignored, and the parenthesis missing in it is not. -/
theorem evaluateSource_takes_first_expression_of_two :
    let expr : Value := .list [.symbol "define", .symbol "x", .int 1]
    let m := Machine.initial
    readAll "(define x 1) 'y" = .ok [expr, .symbol "'y"] ∧
    evaluateSource "(define x 1) 'y" Heap.root m =
      (Eval.evaluate expr Heap.root).adaptExcept .evaluation m ∧
    readAll "(define x 1) (+ 1" = .error .mismatchedParens ∧
    evaluateSource "(define x 1) (+ 1" Heap.root m = .error (.reading .mismatchedParens) m := by
  intro expr m
  have found : Token.tokenize "(define x 1) 'y" =
    .ok [.lparen, .item "define", .item "x", .item "1", .rparen, .item "'y"] := by decide +kernel
  have both : readAll "(define x 1) 'y" = .ok [expr, .symbol "'y"] := readAll_of_tokenize found
  have unequal : Token.tokenize "(define x 1) (+ 1" = .error .mismatchedParens := by decide +kernel
  have cut : readAll "(define x 1) (+ 1" = .error .mismatchedParens :=
    readAll_of_untokenized unequal
  obtain ⟨v, rest, same, evaluated⟩ :=
    (evaluateSource_takes_first_expression "(define x 1) 'y" Heap.root m).1 _ both
  cases same
  refine ⟨both, evaluated, cut, ?_⟩
  rcases (evaluateSource_takes_first_expression "(define x 1) (+ 1" Heap.root m).2 _ cut with
    ⟨unread, -⟩ | ⟨-, -, -, -, -, -, -, balanced, -⟩
  · exact unread
  · exact absurd rfl balanced

/-- A quote mark with no list after it, behind a definition. The snippet cannot be read, and the
name is bound. -/
theorem evaluateSource_of_unreadable_snippet :
    readAll "(define x 1) '" = .error (.erroneousToken "'") ∧
    ∃ v m, evaluateSource "(define x 1) '" Heap.root Machine.initial = .ok v m ∧
      v.text = "\"success\"" ∧ m.heap.names Heap.root = ["x"] := by
  have found : Token.tokenize "(define x 1) '" =
    .ok [.lparen, .item "define", .item "x", .item "1", .rparen, .item "'"] := by decide +kernel
  have unreadable : readAll "(define x 1) '" = .error (.erroneousToken "'") :=
    readAll_of_tokenize found
  have ran : (match evaluateSource "(define x 1) '" Heap.root Machine.initial with
    | .ok v m => some (v.text, m.heap.names Heap.root)
    | .error .. => none) = some ("\"success\"", ["x"]) := by decide +kernel
  refine ⟨unreadable, ?_⟩
  cases ended : evaluateSource "(define x 1) '" Heap.root Machine.initial with
  | ok v m =>
    rw [ended] at ran
    obtain ⟨text, names⟩ := Prod.ext_iff.mp (Option.some.inj ran)
    exact ⟨v, m, rfl, text, names⟩
  | error e m =>
    rw [ended] at ran
    cases ran

end SmallLisp
