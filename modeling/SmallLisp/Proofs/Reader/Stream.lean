import SmallLisp.Proofs.Reader.FirstExpression

/-! A stream of tokens in any sequence of steps. Whatever has been done with it, it holds the tokens
from some place on: looking ahead takes none, reading takes those of what it gives, and a failure
takes those up to the first after which nothing could have been read. -/
namespace SmallLisp

/-- The tokens still to be scanned, and the string that is not closed if there is one. -/
def TokenSource.left : TokenSource → List Token × Option String
  | .text rest => Token.lex rest
  | .tokens rest => (rest, none)

theorem TokenSource.next_of_left {source : TokenSource} {ts : List Token}
    (left : source.left = (ts, none)) :
    ∃ source', source.next = (.ok ts.head?, source') ∧ source'.left = (ts.tail, none) := by
  cases source with
  | tokens rest =>
    cases left
    cases ts with
    | nil => exact ⟨_, rfl, rfl⟩
    | cons t rest => exact ⟨_, rfl, rfl⟩
  | text rest =>
    change Token.lex rest = _ at left
    rw [Token.lex_eq] at left
    rw [next]
    cases found : Token.scan rest with
    | ended =>
      rw [found] at left
      cases left
      exact ⟨_, rfl, Token.lex_finalGap (.closed .nil)⟩
    | unterminated raw =>
      rw [found] at left
      cases left
    | token t later =>
      rw [found] at left
      obtain ⟨rfl, closed⟩ := Prod.mk.inj left
      exact ⟨_, rfl, Prod.ext rfl closed⟩

namespace TokenStream

/-- The tokens that are left: the one that has been looked at, if there is one, and those still to
be scanned. All strings in them are closed. -/
def Holds (s : TokenStream) (ts : List Token) : Prop :=
  ∃ rest, s.source.left = (rest, none) ∧ s.ahead.toList ++ rest = ts

section

variable {s s' : TokenStream} {ts : List Token}

theorem holds_ofTokens (ts : List Token) : (ofTokens ts).Holds ts := ⟨ts, rfl, rfl⟩

theorem Holds.unique {ts' : List Token} (holds : s.Holds ts) (holds' : s.Holds ts') : ts = ts' := by
  obtain ⟨rest, left, rfl⟩ := holds
  obtain ⟨rest', left', rfl⟩ := holds'
  rw [left] at left'
  cases left'
  rfl

theorem Holds.peek (holds : s.Holds ts) : ∃ s', s.peek = (.ok ts.head?, s') ∧ s'.Holds ts := by
  obtain ⟨rest, left, rfl⟩ := holds
  cases looked : s.ahead with
  | some t =>
    rw [TokenStream.peek, looked]
    exact ⟨s, rfl, rest, left, by rw [looked]⟩
  | none =>
    obtain ⟨source, next, later⟩ := TokenSource.next_of_left left
    rw [TokenStream.peek, looked]
    simp only [next]
    refine ⟨_, rfl, rest.tail, later, ?_⟩
    cases rest <;> rfl

theorem Holds.advance (holds : s.Holds ts) :
    ∃ s', s.advance = (.ok ts.head?, s') ∧ s'.Holds ts.tail := by
  obtain ⟨rest, left, rfl⟩ := holds
  cases looked : s.ahead with
  | some t =>
    rw [TokenStream.advance, looked]
    exact ⟨_, rfl, rest, left, rfl⟩
  | none =>
    obtain ⟨source, next, later⟩ := TokenSource.next_of_left left
    rw [TokenStream.advance, looked]
    simp only [next]
    exact ⟨_, rfl, _, later, rfl⟩

/-- Streams that hold the same tokens, though one may have been looked at. -/
def Alike (s s' : TokenStream) : Prop := ∃ ts, s.Holds ts ∧ s'.Holds ts

theorem Holds.alike (holds : s.Holds ts) : s.Alike (ofTokens ts) := ⟨ts, holds, holds_ofTokens ts⟩

theorem Alike.holds (alike : s.Alike s') (holds : s'.Holds ts) : s.Holds ts := by
  obtain ⟨ts', first, second⟩ := alike
  obtain rfl := holds.unique second
  exact first

/-- The same result, and streams that hold the same tokens after it. -/
def Same {α : Type} (reading reading' : α × TokenStream) : Prop :=
  reading.1 = reading'.1 ∧ reading.2.Alike reading'.2

theorem Same.exists {α : Type} {result : α} {reading : α × TokenStream}
    (same : Same (result, s) reading) : ∃ s', reading = (result, s') ∧ s.Alike s' :=
  ⟨reading.2, Prod.ext same.1.symm rfl, same.2⟩

theorem Alike.peek (alike : s.Alike s') : Same s.peek s'.peek := by
  obtain ⟨ts, holds, holds'⟩ := alike
  obtain ⟨s₁, looked, left⟩ := holds.peek
  obtain ⟨s₁', looked', left'⟩ := holds'.peek
  rw [looked, looked']
  exact ⟨rfl, ts, left, left'⟩

theorem Alike.advance (alike : s.Alike s') : Same s.advance s'.advance := by
  obtain ⟨ts, holds, holds'⟩ := alike
  obtain ⟨s₁, taken, left⟩ := holds.advance
  obtain ⟨s₁', taken', left'⟩ := holds'.advance
  rw [taken, taken']
  exact ⟨rfl, ts.tail, left, left'⟩

theorem Alike.finish (alike : s.Alike s') (p : Pending) : Same (s.finish p) (s'.finish p) := by
  obtain ⟨ts, holds, holds'⟩ := alike
  -- on the tokens: both take the same next one
  induction ts generalizing s s' p with
  | nil =>
    obtain ⟨s₁, taken, left⟩ := holds.advance
    obtain ⟨s₁', taken', left'⟩ := holds'.advance
    simp only [finish_eq, taken, taken', List.head?_nil]
    exact ⟨rfl, [], left, left'⟩
  | cons t rest ih =>
    obtain ⟨s₁, taken, left⟩ := holds.advance
    obtain ⟨s₁', taken', left'⟩ := holds'.advance
    simp only [finish_eq, taken, taken', List.head?_cons]
    cases p.feed t with
    | error e => exact ⟨rfl, rest, left, left'⟩
    | ok step =>
      cases step with
      | done v => exact ⟨rfl, rest, left, left'⟩
      | more p' => exact ih p' left left'

theorem Alike.expression (alike : s.Alike s') : Same s.expression s'.expression :=
  alike.finish .start

theorem Alike.listItems (alike : s.Alike s') : Same s.listItems s'.listItems := by
  have same := alike.finish .insideList
  rw [TokenStream.listItems, TokenStream.listItems]
  generalize s.finish .insideList = reading at same ⊢
  obtain ⟨result, s₁⟩ := reading
  obtain ⟨s₁', read', left⟩ := same.exists
  rw [read']
  cases result with
  | error e => exact ⟨rfl, left⟩
  | ok v => cases v <;> exact ⟨rfl, left⟩

theorem Alike.expressionsFrom (alike : s.Alike s') (done : List Value) :
    Same (s.expressionsFrom done) (s'.expressionsFrom done) := by
  rw [expressionsFrom_eq done s']
  fun_induction TokenStream.expressionsFrom done s generalizing s' with
  | case1 done s e s₁ looked =>
    obtain ⟨s₁', looked', left⟩ := (looked ▸ alike.peek).exists
    rw [looked']
    exact ⟨rfl, left⟩
  | case2 done s s₁ looked =>
    obtain ⟨s₁', looked', left⟩ := (looked ▸ alike.peek).exists
    rw [looked']
    exact ⟨rfl, left⟩
  | case3 done s t s₁ looked e s₂ failed =>
    obtain ⟨s₁', looked', left⟩ := (looked ▸ alike.peek).exists
    obtain ⟨s₂', failed', later⟩ := (failed ▸ left.expression).exists
    rw [looked']
    simp only [failed']
    exact ⟨rfl, later⟩
  | case4 done s t s₁ looked v s₂ read ih =>
    obtain ⟨s₁', looked', left⟩ := (looked ▸ alike.peek).exists
    obtain ⟨s₂', read', later⟩ := (read ▸ left.expression).exists
    rw [looked']
    simp only [read']
    rw [expressionsFrom_eq _ s₂']
    exact ih later

end

end TokenStream

/-- The tokens are the beginning of an expression, and not all of it. -/
def Begins (ts : List Token) : Prop := ∃ later v, later ≠ [] ∧ Expressions (ts ++ later) [v]

/-- Why an expression that begins with these tokens is not read: they are all there are, or the
last of them is the first after which it can be none, or opens a list too many. -/
inductive Breaks : List Token → List Token → ReadError → Prop where
  | ended {used : List Token} {e : ReadError} : Begins used → Breaks used [] e
  | refused {before later : List Token} {t : Token} {e : ReadError} : Begins before →
      (∀ more v, ¬ Expressions (before ++ t :: more) [v]) → Breaks (before ++ [t]) later e
  | tooDeep {before later : List Token} : Begins before →
      Pending.nestingLimit ≤ Token.nestingAfter 0 before →
      Breaks (before ++ [.lparen]) later .tooDeep

/-- Each quote mark has a list after it. -/
def Token.Quotes : List Token → Prop
  | [] => True
  | t :: rest => (t = .item Pending.quoteMark → rest.head? = some .lparen) ∧ Quotes rest

theorem Token.Quotes.right {ts ts' : List Token} (quotes : Quotes (ts ++ ts')) : Quotes ts' := by
  induction ts with
  | nil => exact quotes
  | cons t rest ih => exact ih quotes.2

theorem Token.nestingAfter_mark (depth : Nat) (marked : Bool) :
    nestingAfter depth (mark marked) = depth := by
  cases marked <;> rfl

section

variable {ts rest before : List Token} {vs : List Value} {lists : List OpenList}

theorem Expressions.quotes (expressions : Expressions ts vs) (later : Token.Quotes rest) :
    Token.Quotes (ts ++ rest) := by
  induction expressions generalizing rest with
  | nil => exact later
  | atom means _ ih => exact ⟨fun mark => absurd mark means.neutral.2.2, ih later⟩
  | list _ _ inside outside =>
    have whole : Token.Quotes (_ ++ .rparen :: _) := inside ⟨nofun, outside later⟩
    rw [List.append_assoc]
    exact ⟨nofun, whole⟩
  | quoted _ _ inside outside =>
    have whole : Token.Quotes (_ ++ .rparen :: _) := inside ⟨nofun, outside later⟩
    rw [List.append_assoc]
    exact ⟨fun _ => rfl, nofun, whole⟩

theorem Expressions.valued (expressions : Expressions ts vs) {text : String}
    (member : .item text ∈ ts) (unmarked : text ≠ Pending.quoteMark) :
    ∃ v, Atom.ofItem text = .ok v := by
  induction expressions with
  | nil => cases member
  | atom means _ ih =>
    rcases List.mem_cons.mp member with rfl | member
    · cases means with
      | item _ made => exact ⟨_, made⟩
    · exact ih member
  | list _ _ inside outside =>
    simp only [List.cons_append, List.mem_cons, List.mem_append, reduceCtorEq, false_or] at member
    exact member.elim inside outside
  | quoted _ _ inside outside =>
    simp only [List.cons_append, List.mem_cons, List.mem_append, reduceCtorEq, false_or,
      Token.item.injEq, unmarked] at member
    exact member.elim inside outside

theorem Expressions.ne_nil {v : Value} (made : Expressions ts [v]) : ts ≠ [] := by
  rintro rfl
  cases made

theorem Breaks.ne_nil {used later : List Token} {e : ReadError} (breaks : Breaks used later e)
    (left : used ++ later ≠ []) : used ≠ [] := by
  cases breaks with
  | ended => rwa [List.append_nil] at left
  | refused => simp
  | tooDeep => simp

theorem Expressions.of_lparen {v : Value} (made : Expressions (.lparen :: ts) [v]) :
    ∃ inner items, ts = inner ++ [.rparen] ∧ v = .list items ∧ Expressions inner items := by
  generalize same : Token.lparen :: ts = tokens at made
  cases made with
  | atom means _ =>
    cases same
    exact absurd rfl means.neutral.1
  | list inside outside =>
    cases outside
    exact ⟨_, _, (List.cons.inj same).2, rfl, inside⟩
  | quoted => cases same

theorem Opened.nesting (opened : Opened lists before) :
    Token.nestingAfter 0 before = lists.length := by
  induction opened with
  | nil => rfl
  | cons quoted _ inside ih =>
    rw [Token.nestingAfter_append, ih, Token.nestingAfter_append, Token.nestingAfter_mark]
    exact Token.nestingAfter_expressions inside

/-- With one value more, the lists that are open can be closed. -/
theorem Opened.closes (opened : Opened lists before) {v : Value} (made : Expressions ts [v]) :
    ∃ later w, Expressions (before ++ ts ++ later) [w] := by
  induction opened generalizing ts v with
  | nil => exact ⟨[], v, by simpa using made⟩
  | @cons outer before inner items quoted _ inside ih =>
    have list := (inside.append made).close quoted
    obtain ⟨later, w, whole⟩ := ih list
    exact ⟨.rparen :: later, w, by simpa using whole⟩

theorem Opened.begins (opened : Opened lists before) (marked : Bool) :
    Begins (before ++ Token.mark marked) := by
  obtain ⟨later, v, whole⟩ := opened.closes (Expressions.nil.close marked)
  exact ⟨.lparen :: .rparen :: later, v, nofun, by simpa using whole⟩

/-- What no list can be opened for, and what fits into none, is refused. -/
theorem Opened.breaks {p : Pending} (opened : Opened p.lists before) {t : Token} {e : ReadError}
    (failed : p.feed t = .error e) (later : List Token) :
    Breaks (before ++ Token.mark p.marked ++ [t]) later e := by
  have begun := opened.begins p.marked
  have outcome := Pending.fed_feed p t
  rw [failed] at outcome
  generalize made : Except.error e = result at outcome
  cases outcome with
  | opensTooDeep full =>
    cases made
    refine .tooDeep begun ?_
    rwa [Token.nestingAfter_append, Token.nestingAfter_mark, opened.nesting]
  | unquotes other =>
    refine .refused begun fun more v whole => other ?_
    have quotes : Token.Quotes (_ ++ []) := whole.quotes trivial
    rw [List.append_nil, List.append_assoc] at quotes
    exact Option.some.inj (quotes.right.1 rfl)
  | closesNothing =>
    cases opened
    exact .refused begun fun more v whole => nomatch whole
  | meansNothing unmarked unmade =>
    refine .refused begun fun more v whole => ?_
    obtain ⟨w, read⟩ := whole.valued (by simp) unmarked
    rw [unmade] at read
    cases read
  | _ => cases made

end

namespace TokenStream

variable {tokens : List Token} {s : TokenStream} {e : ReadError}

theorem breaks_of_finish {p : Pending} {before : List Token} (opened : Opened p.lists before)
    (failed : (ofTokens tokens).finish p = (.error e, s)) :
    ∃ used later, tokens = used ++ later ∧ s = ofTokens later ∧
      Breaks (before ++ Token.mark p.marked ++ used) later e := by
  -- on the tokens: those before them have opened the lists that are pending
  induction tokens generalizing p before with
  | nil =>
    rw [finish_nil] at failed
    cases failed
    exact ⟨[], [], rfl, rfl, by simpa using .ended (opened.begins p.marked)⟩
  | cons t rest ih =>
    cases fed : p.feed t with
    | error e' =>
      rw [finish_failed fed] at failed
      cases failed
      exact ⟨[t], rest, rfl, rfl, opened.breaks fed rest⟩
    | ok step =>
      have made := opened.feed fed
      rw [finish_cons fed] at failed
      cases step with
      | done v => cases failed
      | more p' =>
        obtain ⟨before', opened', same⟩ := made
        obtain ⟨used, later, rfl, stream, breaks⟩ := ih opened' failed
        exact ⟨t :: used, later, rfl, stream, by simpa [same] using breaks⟩

/-- What can be done with a stream. -/
inductive Step where
  | peek
  | advance
  | expression
  | list
  | all

/-- The next token or none at the end, the values that were read, or those before a failure. -/
inductive Outcome where
  | token (t : Option Token)
  | values (vs : List Value)
  | failed (before : List Value) (e : ReadError)

namespace Outcome

def ofToken : Except ReadError (Option Token) → Outcome
  | .ok t => .token t
  | .error e => .failed [] e

def ofValues : Except ReadError (List Value) → Outcome
  | .ok vs => .values vs
  | .error e => .failed [] e

def ofAll : List Value × Option ReadError → Outcome
  | (vs, none) => .values vs
  | (vs, some e) => .failed vs e

end Outcome

def perform (s : TokenStream) : Step → Outcome × TokenStream
  | .peek => (.ofToken s.peek.1, s.peek.2)
  | .advance => (.ofToken s.advance.1, s.advance.2)
  | .expression => (.ofValues (s.expression.1.map ([·])), s.expression.2)
  | .list => (.ofValues s.listItems.1, s.listItems.2)
  | .all => (.ofAll s.expressions.1, s.expressions.2)

def outcomes (s : TokenStream) : List Step → List Outcome
  | [] => []
  | step :: rest => (s.perform step).1 :: (s.perform step).2.outcomes rest

/-- The stream after these steps. -/
def after (s : TokenStream) : List Step → TokenStream
  | [] => s
  | step :: rest => (s.perform step).2.after rest

/-- The tokens that a step takes where others are left, and its outcome. -/
inductive Consumes : Step → List Token → List Token → Outcome → Prop where
  | peek (later : List Token) : Consumes .peek [] later (.token later.head?)
  | advance (t : Token) (later : List Token) : Consumes .advance [t] later (.token (some t))
  | ended : Consumes .advance [] [] (.token none)
  | expression {used : List Token} {v : Value} (later : List Token) : Expressions used [v] →
      Consumes .expression used later (.values [v])
  | list {inner : List Token} {items : List Value} (later : List Token) :
      Expressions inner items → Consumes .list (inner ++ [.rparen]) later (.values items)
  | all {used : List Token} {vs : List Value} : Expressions used vs →
      Consumes .all used [] (.values vs)
  | noExpression {used later : List Token} {e : ReadError} : Breaks used later e →
      Consumes .expression used later (.failed [] e)
  | noList {used later : List Token} {e : ReadError} : Breaks (.lparen :: used) later e →
      Consumes .list used later (.failed [] e)
  | notAll {first used later : List Token} {vs : List Value} {e : ReadError} :
      Expressions first vs → used ≠ [] → Breaks used later e →
      Consumes .all (first ++ used) later (.failed vs e)

/-- Of the tokens, those that the step takes come first, and the stream holds the others then. -/
def Accounts (tokens : List Token) (step : Step) (done : Outcome × TokenStream) : Prop :=
  ∃ used later, tokens = used ++ later ∧ Consumes step used later done.1 ∧ done.2.Holds later

section

variable {s s' : TokenStream} {tokens : List Token} {step : Step}

theorem accounts_expression (tokens : List Token) :
    Accounts tokens .expression ((ofTokens tokens).perform .expression) := by
  simp only [perform]
  cases read : (ofTokens tokens).expression with
  | mk result s =>
    cases result with
    | ok v =>
      obtain ⟨used, later, same, rfl, made⟩ := expressions_of_expression read
      exact ⟨used, later, same, .expression later made, holds_ofTokens later⟩
    | error e =>
      have opened : Opened Pending.start.lists [] := .nil
      obtain ⟨used, later, same, rfl, breaks⟩ := breaks_of_finish opened read
      exact ⟨used, later, same, .noExpression breaks, holds_ofTokens later⟩

theorem accounts_list (tokens : List Token) :
    Accounts tokens .list ((ofTokens tokens).perform .list) := by
  have opened : Opened Pending.insideList.lists [.lparen] := Opened.nil.cons false .nil
  simp only [perform, listItems]
  cases read : (ofTokens tokens).finish .insideList with
  | mk result s =>
    cases result with
    | ok v =>
      obtain ⟨used, later, same, rfl, made⟩ := expressions_of_finish opened read
      obtain ⟨inner, items, rfl, rfl, inside⟩ := made.of_lparen
      exact ⟨inner ++ [.rparen], later, same, .list later inside, holds_ofTokens later⟩
    | error e =>
      obtain ⟨used, later, same, rfl, breaks⟩ := breaks_of_finish opened read
      exact ⟨used, later, same, .noList breaks, holds_ofTokens later⟩

/-- An expression before all the others. -/
theorem Consumes.cons {first used later : List Token} {v : Value} (made : Expressions first [v])
    {result : List Value × Option ReadError} (consumes : Consumes .all used later (.ofAll result)) :
    Consumes .all (first ++ used) later (.ofAll (v :: result.1, result.2)) := by
  obtain ⟨vs, failure⟩ := result
  cases failure with
  | none =>
    cases consumes with
    | all expressions => exact .all (made.append expressions)
  | some e =>
    cases consumes with
    | notAll expressions some breaks =>
      rw [← List.append_assoc]
      exact .notAll (made.append expressions) some breaks

theorem consumes_expressionsFrom (tokens : List Token) (done : List Value) :
    ∃ used later vs failure, tokens = used ++ later ∧
      (ofTokens tokens).expressionsFrom done = ((done.reverse ++ vs, failure), ofTokens later) ∧
      Consumes .all used later (.ofAll (vs, failure)) := by
  -- on the number of tokens: an expression takes one at least
  induction count : tokens.length using Nat.strong_induction_on generalizing tokens done with
  | _ n ih =>
    rw [expressionsFrom_eq]
    cases tokens with
    | nil => exact ⟨[], [], [], none, rfl, by simp [ofTokens, peek, TokenSource.next], .all .nil⟩
    | cons t rest =>
      have looked : (ofTokens (t :: rest)).peek = (.ok (some t), ⟨.tokens rest, some t⟩) := rfl
      have ahead : (TokenStream.mk (.tokens rest) (some t)).expression =
        (ofTokens (t :: rest)).expression := finish_ahead
      simp only [looked, ahead]
      cases read : (ofTokens (t :: rest)).expression with
      | mk result s =>
        cases result with
        | error e =>
          have opened : Opened Pending.start.lists [] := .nil
          obtain ⟨used, later, same, rfl, breaks⟩ := breaks_of_finish opened read
          have taken : used ≠ [] := breaks.ne_nil (same ▸ List.cons_ne_nil t rest)
          exact ⟨used, later, [], some e, same, by simp, .notAll .nil taken breaks⟩
        | ok v =>
          obtain ⟨first, between, same, rfl, made⟩ := expressions_of_expression read
          have fewer : between.length < n := by
            have taken : 0 < first.length := List.length_pos_iff.mpr made.ne_nil
            rw [← count, same, List.length_append]
            omega
          obtain ⟨used, later, vs, failure, rfl, others, consumes⟩ :=
            ih _ fewer between (v :: done) rfl
          exact ⟨first ++ used, later, v :: vs, failure, by simp [same], by simp [others],
            consumes.cons made⟩

theorem accounts_all (tokens : List Token) :
    Accounts tokens .all ((ofTokens tokens).perform .all) := by
  obtain ⟨used, later, vs, failure, same, read, consumes⟩ := consumes_expressionsFrom tokens []
  simp only [perform, expressions, read]
  exact ⟨used, later, same, consumes, holds_ofTokens later⟩

theorem accounts_perform (tokens : List Token) (step : Step) :
    Accounts tokens step ((ofTokens tokens).perform step) := by
  cases step with
  | peek =>
    obtain ⟨s, looked, holds⟩ := (holds_ofTokens tokens).peek
    simp only [perform, looked]
    exact ⟨[], tokens, rfl, .peek tokens, holds⟩
  | advance =>
    obtain ⟨s, taken, holds⟩ := (holds_ofTokens tokens).advance
    simp only [perform, taken]
    cases tokens with
    | nil => exact ⟨[], [], rfl, .ended, holds⟩
    | cons t rest => exact ⟨[t], rest, rfl, .advance t rest, holds⟩
  | expression => exact accounts_expression tokens
  | list => exact accounts_list tokens
  | all => exact accounts_all tokens

theorem Alike.perform (alike : s.Alike s') (step : Step) :
    Same (s.perform step) (s'.perform step) := by
  cases step with
  | peek => exact ⟨congrArg Outcome.ofToken alike.peek.1, alike.peek.2⟩
  | advance => exact ⟨congrArg Outcome.ofToken alike.advance.1, alike.advance.2⟩
  | expression =>
    have same := alike.expression
    simp only [TokenStream.perform, same.1]
    exact ⟨rfl, same.2⟩
  | list => exact ⟨congrArg Outcome.ofValues alike.listItems.1, alike.listItems.2⟩
  | all =>
    have same := alike.expressionsFrom []
    exact ⟨congrArg Outcome.ofAll same.1, same.2⟩

theorem Alike.outcomes (alike : s.Alike s') (steps : List Step) :
    s.outcomes steps = s'.outcomes steps := by
  induction steps generalizing s s' with
  | nil => rfl
  | cons step rest ih =>
    obtain ⟨same, left⟩ := alike.perform step
    rw [TokenStream.outcomes, TokenStream.outcomes, same, ih left]

theorem Holds.perform (holds : s.Holds tokens) (step : Step) :
    Accounts tokens step (s.perform step) := by
  obtain ⟨used, later, same, consumes, left⟩ := accounts_perform tokens step
  obtain ⟨outcome, after⟩ := holds.alike.perform step
  exact ⟨used, later, same, outcome ▸ consumes, after.holds left⟩

/-- What becomes of a stream, within a step too: it is looked at, or a token is taken. -/
inductive Moves (s : TokenStream) : TokenStream → Prop where
  | refl : Moves s s
  | peek {s₁ s₂ : TokenStream} {result : Except ReadError (Option Token)} : Moves s s₁ →
      s₁.peek = (result, s₂) → Moves s s₂
  | advance {s₁ s₂ : TokenStream} {result : Except ReadError (Option Token)} : Moves s s₁ →
      s₁.advance = (result, s₂) → Moves s s₂

theorem Moves.finish (moves : Moves s s') (p : Pending) : Moves s (s'.finish p).2 := by
  fun_induction TokenStream.finish p s' with
  | case1 p s' e s₁ taken
  | case2 p s' s₁ taken
  | case3 p s' t s₁ taken
  | case4 p s' t s₁ taken => exact moves.advance taken
  | case5 p s' t s₁ taken p₁ fed ih => exact ih (moves.advance taken)

theorem Moves.listItems (moves : Moves s s') : Moves s s'.listItems.2 := by
  have finished := moves.finish .insideList
  rw [TokenStream.listItems]
  split <;> simpa [*] using finished

theorem Moves.expressionsFrom (moves : Moves s s') (done : List Value) :
    Moves s (s'.expressionsFrom done).2 := by
  fun_induction TokenStream.expressionsFrom done s' with
  | case1 done s' e s₁ looked
  | case2 done s' s₁ looked => exact moves.peek looked
  | case3 done s' t s₁ looked e s₂ failed =>
    have finished := (moves.peek looked).finish .start
    change Moves s s₁.expression.2 at finished
    rwa [failed] at finished
  | case4 done s' t s₁ looked v s₂ read ih =>
    have finished := (moves.peek looked).finish .start
    change Moves s s₁.expression.2 at finished
    rw [read] at finished
    exact ih finished

theorem Moves.after (moves : Moves s s') (steps : List Step) : Moves s (s'.after steps) := by
  induction steps generalizing s' with
  | nil => exact moves
  | cons step rest ih =>
    refine ih ?_
    cases step with
    | peek => exact moves.peek rfl
    | advance => exact moves.advance rfl
    | expression => exact moves.finish .start
    | list => exact moves.listItems
    | all => exact moves.expressionsFrom []

/-- Whatever becomes of it, the stream holds the tokens from some place on. -/
theorem Holds.moves (holds : s.Holds tokens) (moves : Moves s s') :
    ∃ k, s'.Holds (tokens.drop k) := by
  induction moves with
  | refl => exact ⟨0, holds⟩
  | peek _ looked ih =>
    obtain ⟨k, held⟩ := ih
    obtain ⟨s₁, looked', left⟩ := held.peek
    cases looked.symm.trans looked'
    exact ⟨k, left⟩
  | advance _ taken ih =>
    obtain ⟨k, held⟩ := ih
    obtain ⟨s₁, taken', left⟩ := held.advance
    cases taken.symm.trans taken'
    rw [List.tail_drop] at left
    exact ⟨k + 1, left⟩

end

end TokenStream

end SmallLisp
