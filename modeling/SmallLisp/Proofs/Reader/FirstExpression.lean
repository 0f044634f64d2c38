import SmallLisp.Proofs.Reader.Grammar

/-! What is read belongs to the tokens that are taken for it: reading one expression takes the
tokens of one, and leaves what comes after it as it is. -/
namespace SmallLisp

/-- The tokens of a quote mark, or of none. -/
def Token.mark (marked : Bool) : List Token := if marked then [.item Pending.quoteMark] else []

theorem Expressions.append {ts ts' : List Token} {vs vs' : List Value} (first : Expressions ts vs)
    (later : Expressions ts' vs') : Expressions (ts ++ ts') (vs ++ vs') := by
  induction first with
  | nil => exact later
  | atom means _ ih => exact .atom means ih
  | list inside _ _ ih =>
    have whole := Expressions.list inside ih
    simpa using whole
  | quoted inside _ _ ih =>
    have whole := Expressions.quoted inside ih
    simpa using whole

theorem Expressions.close {inner : List Token} {items : List Value} (inside : Expressions inner items)
    (quoted : Bool) : Expressions (Token.mark quoted ++ .lparen :: inner ++ [.rparen])
      [OpenList.close ⟨quoted, items.reverse⟩] := by
  rw [OpenList.close, List.reverse_reverse]
  cases quoted with
  | false => exact .list inside .nil
  | true => exact .quoted inside .nil

/-- The tokens read since the first of these lists was opened, which make the items in them. -/
inductive Opened : List OpenList → List Token → Prop where
  | nil : Opened [] []
  | cons {outer : List OpenList} {before inner : List Token} {items : List Value} (quoted : Bool) :
      Opened outer before → Expressions inner items →
      Opened (⟨quoted, items.reverse⟩ :: outer) (before ++ (Token.mark quoted ++ .lparen :: inner))

/-- What a step has made of the tokens so far: the expression, or the lists that are open. -/
def Pending.Step.Of (tokens : List Token) : Pending.Step → Prop
  | .done v => Expressions tokens [v]
  | .more p => ∃ before, Opened p.lists before ∧ before ++ Token.mark p.marked = tokens

section

variable {lists : List OpenList} {before ts : List Token} {v : Value} {p : Pending} {t : Token}

theorem Opened.add (opened : Opened lists before) (made : Expressions ts [v]) :
    (Pending.add v lists).Of (before ++ ts) := by
  cases opened with
  | nil => exact made
  | @cons outer before inner items quoted opened inside =>
    have longer := opened.cons quoted (inside.append made)
    rw [List.reverse_append] at longer
    exact ⟨_, longer, by simp [Token.mark]⟩

theorem Opened.feed (opened : Opened p.lists before) {step : Pending.Step}
    (fed : p.feed t = .ok step) : step.Of (before ++ Token.mark p.marked ++ [t]) := by
  have outcome := Pending.fed_feed p t
  rw [fed] at outcome
  generalize made : Except.ok step = result at outcome
  cases outcome with
  | opens =>
    cases made
    exact ⟨_, opened.cons p.marked .nil, by simp [Token.mark]⟩
  | closes =>
    cases made
    cases opened with
    | cons quoted opened inside =>
      have closed := opened.add (inside.close quoted)
      simpa [Token.mark] using closed
  | adds means =>
    cases made
    have added := opened.add (.atom means .nil)
    simpa [Token.mark] using added
  | marks =>
    cases made
    exact ⟨before, opened, by simp [Token.mark]⟩
  | _ => cases made

end

namespace TokenStream

theorem expressions_of_finish {tokens : List Token} {p : Pending} {before : List Token}
    (opened : Opened p.lists before) {v : Value} {s : TokenStream}
    (read : (ofTokens tokens).finish p = (.ok v, s)) :
    ∃ used later, tokens = used ++ later ∧ s = ofTokens later ∧
      Expressions (before ++ Token.mark p.marked ++ used) [v] := by
  -- on the tokens: those before them have opened the lists that are pending
  induction tokens generalizing p before with
  | nil =>
    rw [finish_nil] at read
    cases read
  | cons t rest ih =>
    cases fed : p.feed t with
    | error e =>
      rw [finish_failed fed] at read
      cases read
    | ok step =>
      have made := opened.feed fed
      rw [finish_cons fed] at read
      cases step with
      | done w =>
        cases read
        exact ⟨[t], rest, rfl, rfl, made⟩
      | more p' =>
        obtain ⟨before', opened', same⟩ := made
        obtain ⟨used, later, rfl, stream, expression⟩ := ih opened' read
        refine ⟨t :: used, later, rfl, stream, ?_⟩
        simpa [same] using expression

/-- The tokens taken for one expression are those of one, and all others are left. -/
theorem expressions_of_expression {tokens : List Token} {v : Value} {s : TokenStream}
    (read : (ofTokens tokens).expression = (.ok v, s)) :
    ∃ first later, tokens = first ++ later ∧ s = ofTokens later ∧ Expressions first [v] := by
  have opened : Opened Pending.start.lists [] := .nil
  exact expressions_of_finish opened read

end TokenStream

/-- What has been read before stays in front of what is read now. -/
theorem build_done (done : List Value) (p : Pending) (tokens : List Token) :
    build done p tokens = (done.reverse ++ (build [] p tokens).1, (build [] p tokens).2) := by
  induction tokens generalizing done p with
  | nil => simp [build]
  | cons t rest ih =>
    cases fed : p.feed t with
    | error e => simp [build, fed]
    | ok step =>
      cases step with
      | done v => simp [build, fed, ih (v :: done), ih [v]]
      | more p' => simp [build, fed, ih done]

section

variable {source : String}

theorem readAll_eq_error_iff {tokens : List Token} (found : Token.tokenize source = .ok tokens)
    {e : ReadError} : readAll source = .error e ↔ (build [] .start tokens).2 = some e := by
  rw [readAll_of_tokenize found]
  generalize build [] .start tokens = result
  obtain ⟨values, failure⟩ := result
  cases failure <;> simp

theorem readAll_of_read_error {e : ReadError} (failed : read source = .error e) :
    readAll source = .error e := by
  cases found : Token.tokenize source with
  | error fault =>
    rw [read, found] at failed
    cases failed
    exact readAll_of_untokenized found
  | ok tokens =>
    rw [read, found] at failed
    have first : (TokenStream.ofTokens tokens).expression.1 = .error e := failed
    have nonempty := (Token.of_tokenize_ok found).1
    exact (readAll_eq_error_iff found).mpr (TokenStream.build_of_expression_error nonempty first)

/-- The first expression, and what reading makes of the rest. -/
theorem readAll_of_read {v : Value} (made : read source = .ok v) :
    ∃ first later, Token.tokenize source = .ok (first ++ later) ∧ Expressions first [v] ∧
      readAll source = match (TokenStream.ofTokens later).expressions.1 with
        | (values, none) => .ok (v :: values)
        | (_, some e) => .error e := by
  cases found : Token.tokenize source with
  | error fault =>
    rw [read, found] at made
    cases made
  | ok tokens =>
    rw [read, found] at made
    obtain ⟨t, rest, rfl⟩ := List.exists_cons_of_ne_nil (Token.of_tokenize_ok found).1
    obtain ⟨s, taken⟩ : ∃ s, (TokenStream.ofTokens (t :: rest)).expression = (.ok v, s) :=
      ⟨_, Prod.ext made rfl⟩
    obtain ⟨first, later, same, rfl, expression⟩ := TokenStream.expressions_of_expression taken
    refine ⟨first, later, congrArg _ same, expression, ?_⟩
    have all : build [] .start (t :: rest) = ((TokenStream.ofTokens later).expressionsFrom [v]).1 := by
      change (TokenStream.ofTokens (t :: rest)).finish .start = _ at taken
      rw [(TokenStream.build_eq _).2, TokenStream.expressionsFrom_cons, taken]
      rfl
    rw [← (TokenStream.build_eq later).2, build_done [v]] at all
    rw [readAll_of_tokenize found, all, TokenStream.expressions_eq_build]
    generalize build [] .start later = result
    obtain ⟨values, failure⟩ := result
    cases failure <;> rfl

end

end SmallLisp
