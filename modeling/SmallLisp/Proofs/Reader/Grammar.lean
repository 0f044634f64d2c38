import SmallLisp.Proofs.Reader.RoundTrip

/-! The grammar of source texts. Reading accepts the concatenations of expressions, each of them
as its value, and otherwise names the first token that fits nowhere: a parenthesis that closes
nothing, or a quote mark with no list after it. -/
namespace SmallLisp

/-- Concatenations of expressions: items other than the quote mark, strings, lists, and lists that
a quote mark stands before. -/
inductive Grammatical : List Token → Prop where
  | nil : Grammatical []
  | item {text : String} {ts : List Token} : text ≠ Pending.quoteMark → Grammatical ts →
      Grammatical (.item text :: ts)
  | string (raw : String) {ts : List Token} : Grammatical ts → Grammatical (.string raw :: ts)
  | list {inner ts : List Token} : Grammatical inner → Grammatical ts →
      Grammatical (.lparen :: inner ++ .rparen :: ts)
  | quoted {inner ts : List Token} : Grammatical inner → Grammatical ts →
      Grammatical (.item Pending.quoteMark :: .lparen :: inner ++ .rparen :: ts)

/-- A string, or an item that is no quote mark, and its value. -/
inductive Token.Means : Token → Value → Prop where
  | string (raw : String) : Means (.string raw) (.str (Atom.unescape raw))
  | item {text : String} {v : Value} : text ≠ Pending.quoteMark → Atom.ofItem text = .ok v →
      Means (.item text) v

theorem Token.Means.neutral {t : Token} {v : Value} (means : t.Means v) :
    t ≠ .lparen ∧ t ≠ .rparen ∧ t ≠ .item Pending.quoteMark := by
  cases means with
  | string raw => exact ⟨nofun, nofun, nofun⟩
  | item unmarked _ => exact ⟨nofun, nofun, fun same => unmarked (Token.item.inj same)⟩

theorem Token.Means.prepend {t : Token} {v : Value} (means : t.Means v) {ts : List Token}
    (later : Grammatical ts) : Grammatical (t :: ts) := by
  cases means with
  | string raw => exact .string raw later
  | item unmarked _ => exact .item unmarked later

/-- The tokens of expressions one after another, and the value of each. A list after a quote mark
is written out with the name of the form. -/
inductive Expressions : List Token → List Value → Prop where
  | nil : Expressions [] []
  | atom {t : Token} {v : Value} {ts : List Token} {vs : List Value} : t.Means v →
      Expressions ts vs → Expressions (t :: ts) (v :: vs)
  | list {inner ts : List Token} {items vs : List Value} : Expressions inner items →
      Expressions ts vs → Expressions (.lparen :: inner ++ .rparen :: ts) (.list items :: vs)
  | quoted {inner ts : List Token} {items vs : List Value} : Expressions inner items →
      Expressions ts vs →
      Expressions (.item Pending.quoteMark :: .lparen :: inner ++ .rparen :: ts)
        (.list [.symbol "quote", .list items] :: vs)

namespace Token

/-- How many lists are open after a token. -/
def nesting (depth : Nat) : Token → Nat
  | .lparen => depth + 1
  | .rparen => depth - 1
  | _ => depth

def nestingAfter (depth : Nat) (ts : List Token) : Nat := ts.foldl nesting depth

/-- Never more lists are open than may be. -/
def Shallow (depth : Nat) (ts : List Token) : Prop :=
  ∀ start, start <+: ts → nestingAfter depth start ≤ Pending.nestingLimit

/-- No integer has more digits than are counted out. -/
def Countable (ts : List Token) : Prop :=
  ∀ text, .item text ∈ ts → ∀ negative digits,
    Atom.integer? text.toList = some (negative, digits) → digits.length ≤ Atom.digitLimit

/-- The token there closes nothing, or is a quote mark with no list after it. -/
def Offends (depth : Nat) (ts : List Token) (i : Nat) : Prop :=
  ts[i]? = some .rparen ∧ nestingAfter depth (ts.take i) = 0 ∨
  ts[i]? = some (.item Pending.quoteMark) ∧ ts[i + 1]? ≠ some .lparen

/-- The first token that offends. -/
def FirstOffence (depth : Nat) (ts : List Token) (i : Nat) : Prop :=
  Offends depth ts i ∧ ∀ j < i, ¬ Offends depth ts j

variable {depth : Nat} {t : Token} {ts ts' : List Token} {vs : List Value}

theorem Means.nesting_eq {v : Value} (means : t.Means v) : nesting depth t = depth := by
  cases means <;> rfl

/-- How many digits the token has if it is an integer. -/
def digitCount : Token → Nat
  | .item text => (Atom.integer? text.toList).elim 0 (·.2.length)
  | _ => 0

instance (ts : List Token) : Decidable (Countable ts) :=
  decidable_of_iff (∀ t ∈ ts, t.digitCount ≤ Atom.digitLimit) <| by
    constructor
    · intro each text member negative digits integer
      simpa [digitCount, integer] using each _ member
    · intro countable t member
      cases t with
      | item text =>
        cases integer : Atom.integer? text.toList with
        | none => simp [digitCount, integer]
        | some d => simpa [digitCount, integer] using countable text member d.1 d.2 integer
      | _ => exact Nat.zero_le _

theorem Countable.tail (countable : Countable (t :: ts)) : Countable ts :=
  fun text member => countable text (List.mem_cons_of_mem t member)

theorem nestingAfter_append :
    nestingAfter depth (ts ++ ts') = nestingAfter (nestingAfter depth ts) ts' :=
  List.foldl_append

theorem Shallow.left (shallow : Shallow depth (ts ++ ts')) : Shallow depth ts :=
  fun start before => shallow start (before.trans (List.prefix_append ts ts'))

theorem Shallow.right (shallow : Shallow depth (ts ++ ts')) :
    Shallow (nestingAfter depth ts) ts' := by
  intro start before
  rw [← nestingAfter_append]
  exact shallow _ ((List.prefix_append_right_inj ts).mpr before)

theorem Shallow.tail (shallow : Shallow depth (t :: ts)) : Shallow (nesting depth t) ts :=
  fun start before => shallow (t :: start) (List.cons_prefix_cons.mpr ⟨rfl, before⟩)

theorem Shallow.le (shallow : Shallow depth ts) : depth ≤ Pending.nestingLimit :=
  shallow [] (List.nil_prefix)

theorem nestingAfter_le (depth : Nat) (ts : List Token) :
    nestingAfter depth ts ≤ depth + ts.length := by
  induction ts generalizing depth with
  | nil => exact Nat.le_refl _
  | cons t rest ih =>
    have later := ih (nesting depth t)
    have step : nesting depth t ≤ depth + 1 := by cases t <;> simp [nesting]; omega
    change nestingAfter (nesting depth t) rest ≤ _
    rw [List.length_cons]
    omega

/-- No more lists are open than there are tokens. -/
theorem shallow_of_length (few : depth + ts.length ≤ Pending.nestingLimit) : Shallow depth ts :=
  fun start before => Nat.le_trans (nestingAfter_le depth start)
    (Nat.le_trans (Nat.add_le_add_left before.length_le depth) few)

theorem nestingAfter_list (inner : ∀ depth, nestingAfter depth ts = depth) :
    nestingAfter depth (.lparen :: ts ++ .rparen :: ts') = nestingAfter depth ts' := by
  change nestingAfter (depth + 1) (ts ++ .rparen :: ts') = _
  rw [nestingAfter_append, inner]
  rfl

theorem nestingAfter_expressions (expressions : Expressions ts vs) :
    nestingAfter depth ts = depth := by
  induction expressions generalizing depth with
  | nil => rfl
  | atom means _ ih => cases means <;> exact ih
  | list _ _ inner rest => exact (nestingAfter_list fun _ => inner).trans rest
  | quoted _ _ inner rest => exact (nestingAfter_list fun _ => inner).trans rest

theorem Shallow.list (shallow : Shallow depth (.lparen :: ts ++ .rparen :: ts'))
    (inner : ∀ depth, nestingAfter depth ts = depth) :
    depth < Pending.nestingLimit ∧ Shallow (depth + 1) ts ∧ Shallow depth ts' := by
  have inside : Shallow (depth + 1) (ts ++ .rparen :: ts') := shallow.tail
  have outside := inside.right
  rw [inner] at outside
  exact ⟨inside.le, inside.left, outside.tail⟩

/-- The tokens close as many lists as are open or opened. -/
def Balanced (depth : Nat) (ts : List Token) : Prop :=
  depth + ts.count .lparen = ts.count .rparen

theorem Balanced.tail (balanced : Balanced depth (t :: ts)) (inside : t = .rparen → depth ≠ 0) :
    Balanced (nesting depth t) ts := by
  cases t with
  | rparen =>
    have nested := inside rfl
    simp only [Balanced, nesting, List.count_cons_self, ne_eq, reduceCtorEq, not_false_eq_true,
      List.count_cons_of_ne] at balanced ⊢
    omega
  | lparen =>
    simp only [Balanced, nesting, List.count_cons_self, ne_eq, reduceCtorEq, not_false_eq_true,
      List.count_cons_of_ne] at balanced ⊢
    omega
  | _ => simpa [Balanced, nesting] using balanced

/-- The first offence after a token that does not offend. -/
theorem FirstOffence.cons {i : Nat} (first : FirstOffence (nesting depth t) ts i)
    (innocent : ¬ Offends depth (t :: ts) 0) : FirstOffence depth (t :: ts) (i + 1) := by
  refine ⟨first.1, fun j before => ?_⟩
  cases j with
  | zero => exact innocent
  | succ j => exact first.2 j (Nat.lt_of_succ_lt_succ before)

/-- Without a failure, or with one that names the first offence. -/
def Judged (depth : Nat) (ts : List Token) (failure : Option ReadError) : Prop :=
  failure = none ∨ ∃ i t, FirstOffence depth ts i ∧ ts[i]? = some t ∧
    failure = some (.erroneousToken t.lexeme)

variable {failure : Option ReadError}

theorem Judged.cons (judged : Judged (nesting depth t) ts failure)
    (innocent : ¬ Offends depth (t :: ts) 0) : Judged depth (t :: ts) failure := by
  rcases judged with fine | ⟨i, t', first, found, named⟩
  · exact .inl fine
  · exact .inr ⟨i + 1, t', first.cons innocent, found, named⟩

theorem judged_offence (offends : Offends depth (t :: ts) 0) :
    Judged depth (t :: ts) (some (.erroneousToken t.lexeme)) :=
  .inr ⟨0, t, ⟨offends, fun j before => absurd before (Nat.not_lt_zero j)⟩, rfl, rfl⟩

/-- Quote marks and closing parentheses are all that can offend. -/
theorem not_offends (mark : t = .item Pending.quoteMark → ts[0]? = some .lparen)
    (closing : t = .rparen → depth ≠ 0) : ¬ Offends depth (t :: ts) 0 := by
  rintro (⟨same, none⟩ | ⟨same, bare⟩)
  · exact closing (Option.some.inj same) none
  · exact bare (mark (Option.some.inj same))

end Token

theorem Atom.ofItem_error {text : String} {e : ReadError} (failed : ofItem text = .error e) :
    ∃ negative digits, integer? text.toList = some (negative, digits) ∧
      digitLimit < digits.length ∧ e = .tooManyDigits digits.length := by
  rw [ofItem] at failed
  split at failed
  · next negative digits found =>
    simp only [ofDigits] at failed
    split at failed
    · split at failed
      · next long =>
        cases failed
        exact ⟨negative, digits, found, long, rfl⟩
      · cases failed
    · cases failed
  · split at failed <;> cases failed

/-- Every expression has a value, unless an integer in it has too many digits. -/
theorem Grammatical.expressions {ts : List Token} (grammatical : Grammatical ts)
    (countable : Token.Countable ts) : ∃ values, Expressions ts values := by
  induction grammatical with
  | nil => exact ⟨[], .nil⟩
  | @item text ts unmarked _ ih =>
    obtain ⟨values, later⟩ := ih countable.tail
    cases made : Atom.ofItem text with
    | ok v => exact ⟨v :: values, .atom (.item unmarked made) later⟩
    | error e =>
      obtain ⟨negative, digits, integer, long, -⟩ := Atom.ofItem_error made
      exact absurd (countable text List.mem_cons_self negative digits integer)
        (Nat.not_le_of_lt long)
  | string raw _ ih =>
    obtain ⟨values, later⟩ := ih countable.tail
    exact ⟨_ :: values, .atom (.string raw) later⟩
  | @list inner ts _ _ first rest =>
    obtain ⟨items, inside⟩ := first fun text member => countable text (by simp [member])
    obtain ⟨values, later⟩ := rest fun text member => countable text (by simp [member])
    exact ⟨_ :: values, .list inside later⟩
  | @quoted inner ts _ _ first rest =>
    obtain ⟨items, inside⟩ := first fun text member => countable text (by simp [member])
    obtain ⟨values, later⟩ := rest fun text member => countable text (by simp [member])
    exact ⟨_ :: values, .quoted inside later⟩

namespace Pending

/-- All that a token can do to what is pending. -/
inductive Fed : Pending → Token → Except ReadError Step → Prop where
  | opens {p : Pending} : p.lists.length < nestingLimit →
      Fed p .lparen (.ok (.more ⟨⟨p.marked, []⟩ :: p.lists, false⟩))
  | opensTooDeep {p : Pending} : nestingLimit ≤ p.lists.length → Fed p .lparen (.error .tooDeep)
  | unquotes {lists : List OpenList} {t : Token} : t ≠ .lparen →
      Fed ⟨lists, true⟩ t (.error (.erroneousToken quoteMark))
  | closes {l : OpenList} {lists : List OpenList} :
      Fed ⟨l :: lists, false⟩ .rparen (.ok (add l.close lists))
  | closesNothing : Fed ⟨[], false⟩ .rparen (.error (.erroneousToken Token.rparen.lexeme))
  | adds {lists : List OpenList} {t : Token} {v : Value} : t.Means v →
      Fed ⟨lists, false⟩ t (.ok (add v lists))
  | meansNothing {lists : List OpenList} {text : String} {e : ReadError} : text ≠ quoteMark →
      Atom.ofItem text = .error e → Fed ⟨lists, false⟩ (.item text) (.error e)
  | marks {lists : List OpenList} :
      Fed ⟨lists, false⟩ (.item quoteMark) (.ok (.more ⟨lists, true⟩))

theorem fed_feed (p : Pending) (t : Token) : Fed p t (p.feed t) := by
  obtain ⟨lists, marked⟩ := p
  cases t with
  | lparen =>
    have opened : feed ⟨lists, marked⟩ .lparen = openList ⟨lists, marked⟩ marked := by
      cases marked <;> rfl
    rw [opened, openList]
    split
    · next room => exact .opens room
    · next full => exact .opensTooDeep (Nat.le_of_not_lt full)
  | rparen =>
    cases marked with
    | true => exact .unquotes (by simp)
    | false =>
      cases lists with
      | nil => exact .closesNothing
      | cons l lists => exact .closes
  | string raw =>
    cases marked with
    | true => exact .unquotes (by simp)
    | false => exact .adds (.string raw)
  | item text =>
    cases marked with
    | true => exact .unquotes (by simp)
    | false =>
      by_cases mark : text = quoteMark
      · subst mark
        exact .marks
      · change Fed _ _ (if text = quoteMark then _ else _)
        rw [if_neg mark]
        cases made : Atom.ofItem text with
        | ok v => exact .adds (.item mark made)
        | error e => exact .meansNothing mark made

end Pending

/-- An expression has begun and is not complete. -/
def Pending.begun (p : Pending) : Bool := p.marked || !p.lists.isEmpty

/-- Reads expressions token by token, where these are done, newest first. -/
def build (done : List Value) (p : Pending) : List Token → List Value × Option ReadError
  | [] => (done.reverse, if p.begun then some p.cutOff else none)
  | t :: rest =>
    match p.feed t with
    | .error e => (done.reverse, some e)
    | .ok (.done v) => build (v :: done) .start rest
    | .ok (.more p') => build done p' rest

namespace TokenStream

variable {p p' : Pending} {t : Token} {rest : List Token} {done : List Value} {e : ReadError}

theorem begun_of_feed (fed : p.feed t = .ok (.more p')) : p'.begun := by
  have step := Pending.fed_feed p t
  rw [fed] at step
  generalize made : Pending.Step.more p' = more at step
  cases step with
  | opens => cases made; rfl
  | marks => cases made; rfl
  | @closes l lists => cases lists <;> cases made; rfl
  | @adds lists t v _ => cases lists <;> cases made; rfl

theorem finish_failed (failed : p.feed t = .error e) :
    (ofTokens (t :: rest)).finish p = (.error e, ofTokens rest) := by
  have taken : (ofTokens (t :: rest)).advance = (.ok (some t), ofTokens rest) := rfl
  rw [finish_eq, taken]
  simp only [failed]

theorem finish_nil (p : Pending) : (ofTokens []).finish p = (.error p.cutOff, ofTokens []) := by
  have ended : (ofTokens []).advance = (.ok none, ofTokens []) := rfl
  rw [finish_eq, ended]

/-- The expressions after the one that was read. -/
def following (done : List Value) : Reading Value → List Value × Option ReadError
  | (.error e, _) => (done.reverse, some e)
  | (.ok v, s) => (s.expressionsFrom (v :: done)).1

/-- One expression of a stream, if there is one, and then the rest. -/
theorem expressionsFrom_eq (done : List Value) (s : TokenStream) :
    s.expressionsFrom done = match s.peek with
      | (.error e, s₁) => ((done.reverse, some e), s₁)
      | (.ok none, s₁) => ((done.reverse, none), s₁)
      | (.ok (some _), s₁) =>
        match s₁.expression with
        | (.error e, s₂) => ((done.reverse, some e), s₂)
        | (.ok v, s₂) => s₂.expressionsFrom (v :: done) := by
  rw [expressionsFrom]
  split
  · next looked => rw [looked]
  · next looked => rw [looked]
  · next looked =>
    rw [looked]
    simp only
    split
    · next failed => rw [failed]
    · next read => rw [read]

theorem expressionsFrom_cons (done : List Value) (t : Token) (rest : List Token) :
    ((ofTokens (t :: rest)).expressionsFrom done).1 =
      following done ((ofTokens (t :: rest)).finish .start) := by
  have looked : (ofTokens (t :: rest)).peek = (.ok (some t), ⟨.tokens rest, some t⟩) := rfl
  rw [expressionsFrom_eq, looked, ← finish_ahead]
  simp only [expression]
  generalize TokenStream.finish .start ⟨.tokens rest, some t⟩ = reading
  obtain ⟨read, s⟩ := reading
  cases read <;> rfl

theorem build_cons (step : ∀ p', p.feed t = .ok (.more p') →
      build done p' rest = following done ((ofTokens rest).finish p'))
    (whole : ∀ done, build done .start rest = ((ofTokens rest).expressionsFrom done).1) :
    build done p (t :: rest) = following done ((ofTokens (t :: rest)).finish p) := by
  rw [build]
  split
  · next failed => rw [finish_failed failed]; rfl
  · next v fed => rw [finish_cons fed]; exact whole (v :: done)
  · next p' fed => rw [finish_cons fed]; exact step p' fed

/-- Reading token by token is reading from the stream of the tokens. -/
theorem build_eq (tokens : List Token) :
    (∀ done p, p.begun → build done p tokens = following done ((ofTokens tokens).finish p)) ∧
    ∀ done, build done .start tokens = ((ofTokens tokens).expressionsFrom done).1 := by
  induction tokens with
  | nil =>
    refine ⟨fun done p begun => ?_, fun done => ?_⟩
    · rw [build, if_pos begun, finish_nil]
      rfl
    · simp [build, Pending.begun, Pending.start, expressionsFrom, ofTokens, peek, TokenSource.next]
  | cons t rest ih =>
    have step (done : List Value) (p : Pending) :
        build done p (t :: rest) = following done ((ofTokens (t :: rest)).finish p) :=
      build_cons (fun p' fed => ih.1 done p' (begun_of_feed fed)) ih.2
    exact ⟨fun done p _ => step done p, fun done => (step done .start).trans
      (expressionsFrom_cons done t rest).symm⟩

theorem expressions_eq_build (tokens : List Token) :
    (ofTokens tokens).expressions.1 = build [] .start tokens :=
  ((build_eq tokens).2 []).symm

/-- The first expression fails as all of them do. -/
theorem build_of_expression_error {tokens : List Token} (nonempty : tokens ≠ [])
    (failed : (ofTokens tokens).expression.1 = .error e) :
    (build [] .start tokens).2 = some e := by
  obtain ⟨t, rest, rfl⟩ := List.exists_cons_of_ne_nil nonempty
  rw [(build_eq _).2, expressionsFrom_cons]
  change ((ofTokens (t :: rest)).finish .start).1 = .error e at failed
  obtain ⟨s, ended⟩ : ∃ s, (ofTokens (t :: rest)).finish .start = (.error e, s) :=
    ⟨_, Prod.ext failed rfl⟩
  rw [ended]
  rfl

end TokenStream

section

variable {done : List Value} {lists : List OpenList} {t : Token} {rest : List Token}

/-- Finished values are the next expressions, or the next items of the innermost open list. -/
def place (values done : List Value) : List OpenList → List Value × List OpenList
  | [] => (values.reverse ++ done, [])
  | l :: outer => (done, { l with items := values.reverse ++ l.items } :: outer)

theorem length_place (values done : List Value) (lists : List OpenList) :
    (place values done lists).2.length = lists.length := by
  cases lists <;> rfl

theorem place_append (values values' done : List Value) (lists : List OpenList) :
    place values' (place values done lists).1 (place values done lists).2 =
      place (values ++ values') done lists := by
  cases lists <;> simp [place]

theorem build_add {p : Pending} {v : Value} (fed : p.feed t = .ok (Pending.add v lists)) :
    build done p (t :: rest) =
      build (place [v] done lists).1 ⟨(place [v] done lists).2, false⟩ rest := by
  rw [build, fed]
  cases lists <;> rfl

theorem build_opens {marked : Bool} (room : lists.length < Pending.nestingLimit) :
    build done ⟨lists, marked⟩ (.lparen :: rest) =
      build done ⟨⟨marked, []⟩ :: lists, false⟩ rest := by
  have fed : Pending.feed ⟨lists, marked⟩ .lparen = .ok (.more ⟨⟨marked, []⟩ :: lists, false⟩) := by
    cases marked
    · exact Pending.feed_lparen room
    · exact if_pos room
  rw [build, fed]

theorem build_marks : build done ⟨lists, false⟩ (.item Pending.quoteMark :: rest) =
    build done ⟨lists, true⟩ rest := rfl

theorem feed_means {v : Value} (means : t.Means v) :
    Pending.feed ⟨lists, false⟩ t = .ok (Pending.add v lists) := by
  cases means with
  | string raw => rfl
  | @item text _ unmarked made =>
    change (if text = Pending.quoteMark then _ else _) = _
    rw [if_neg unmarked, made]
    rfl

/-- The tokens make the values, in whatever list is open. -/
def Builds (ts : List Token) (values : List Value) : Prop :=
  ∀ (done : List Value) (lists : List OpenList) (rest : List Token),
    Token.Shallow lists.length ts → build done ⟨lists, false⟩ (ts ++ rest) =
      build (place values done lists).1 ⟨(place values done lists).2, false⟩ rest

/-- A list, its items, and what follows it. -/
theorem Builds.list {inner ts : List Token} {items values : List Value} (quoted : Bool)
    (balanced : ∀ depth, Token.nestingAfter depth inner = depth) (first : Builds inner items)
    (later : Builds ts values) (done : List Value) (rest : List Token)
    (shallow : Token.Shallow lists.length (.lparen :: inner ++ .rparen :: ts)) :
    build done ⟨lists, quoted⟩ (.lparen :: inner ++ .rparen :: ts ++ rest) =
      build (place (OpenList.close ⟨quoted, items.reverse⟩ :: values) done lists).1
        ⟨(place (OpenList.close ⟨quoted, items.reverse⟩ :: values) done lists).2, false⟩ rest := by
  obtain ⟨room, inside, outside⟩ := shallow.list balanced
  have opened : build done ⟨lists, quoted⟩ (.lparen :: (inner ++ .rparen :: (ts ++ rest))) = _ :=
    build_opens room
  rw [first done (⟨quoted, []⟩ :: lists) _ inside, place, List.append_nil] at opened
  rw [build_add (p := ⟨⟨quoted, items.reverse⟩ :: lists, false⟩) rfl,
    later _ _ _ (by rwa [length_place]), place_append] at opened
  rw [List.append_assoc]
  exact opened

theorem builds_expressions {ts : List Token} {values : List Value}
    (expressions : Expressions ts values) : Builds ts values := by
  induction expressions with
  | nil =>
    intro done lists rest _
    cases lists <;> rfl
  | @atom t v ts vs means _ ih =>
    intro done lists rest shallow
    have later := shallow.tail
    rw [means.nesting_eq] at later
    rw [List.cons_append, build_add (feed_means means), ih _ _ _ (by rwa [length_place]),
      place_append]
    rfl
  | list balanced _ first later =>
    intro done lists rest shallow
    have made := first.list false (fun _ => Token.nestingAfter_expressions balanced) later done rest
      shallow
    simpa [OpenList.close] using made
  | quoted balanced _ first later =>
    intro done lists rest shallow
    have made := first.list true (fun _ => Token.nestingAfter_expressions balanced) later done rest
      shallow.tail
    simpa [OpenList.close, build_marks] using made

/-- Expressions, and as many closing parentheses between them as lists are open. -/
def Completes : Nat → List Token → Prop
  | 0, ts => Grammatical ts
  | depth + 1, ts => ∃ inner rest, ts = inner ++ .rparen :: rest ∧ Grammatical inner ∧
      Completes depth rest

/-- An expression more. -/
theorem Completes.prepend {depth : Nat} {ts : List Token} (completes : Completes depth ts)
    (first : List Token) (expression : ∀ ts, Grammatical ts → Grammatical (first ++ ts)) :
    Completes depth (first ++ ts) := by
  cases depth with
  | zero => exact expression ts completes
  | succ depth =>
    obtain ⟨inner, rest, rfl, grammatical, completes⟩ := completes
    exact ⟨first ++ inner, rest, (List.append_assoc _ _ _).symm, expression inner grammatical,
      completes⟩

theorem Completes.prependList {depth : Nat} {ts : List Token} (quoted : Bool)
    (completes : Completes (depth + 1) ts) :
    Completes depth ((if quoted then [.item Pending.quoteMark] else []) ++ .lparen :: ts) := by
  obtain ⟨inner, rest, rfl, grammatical, completes⟩ := completes
  cases quoted with
  | false =>
    have whole := completes.prepend (.lparen :: inner ++ [.rparen]) fun ts later => by
      simpa using Grammatical.list grammatical later
    simpa using whole
  | true =>
    have whole := completes.prepend (.item Pending.quoteMark :: .lparen :: inner ++ [.rparen])
      fun ts later => by simpa using Grammatical.quoted grammatical later
    simpa using whole

/-- What is read without a failure is a sequence of expressions, after what is pending. -/
theorem completes_of_build (marked : Bool) (tokens : List Token)
    (read : (build done ⟨lists, marked⟩ tokens).2 = none) :
    Completes lists.length ((if marked then [.item Pending.quoteMark] else []) ++ tokens) := by
  -- on the tokens: what a step leaves pending is completed by the rest of them
  induction tokens generalizing done lists marked with
  | nil =>
    cases lists with
    | cons l outer => simp [build, Pending.begun] at read
    | nil =>
      cases marked with
      | true => simp [build, Pending.begun] at read
      | false => exact .nil
  | cons t rest ih =>
    have step := Pending.fed_feed ⟨lists, marked⟩ t
    generalize fed : Pending.feed ⟨lists, marked⟩ t = result at step
    cases step with
    | opens room =>
      rw [build_opens room] at read
      exact (ih false read).prependList marked
    | opensTooDeep => rw [build, fed] at read; cases read
    | unquotes => rw [build, fed] at read; cases read
    | @closes l outer =>
      rw [build_add fed] at read
      have completes := ih false read
      rw [length_place] at completes
      exact ⟨[], rest, rfl, .nil, completes⟩
    | closesNothing => rw [build, fed] at read; cases read
    | adds means =>
      rw [build_add fed] at read
      have completes := ih false read
      rw [length_place] at completes
      exact completes.prepend [t] fun _ later => means.prepend later
    | meansNothing => rw [build, fed] at read; cases read
    | marks => exact ih true read

/-- No list is left open in the end, so the last failure that can be is that of a quote mark. -/
theorem build_balanced {p : Pending} (tokens : List Token)
    (balanced : Token.Balanced p.lists.length tokens) {e : ReadError}
    (failed : (build done p tokens).2 = some e) : e ≠ .mismatchedParens ∧ e ≠ .emptyExpression := by
  induction tokens generalizing done p with
  | nil =>
    have closed : p.lists = [] := List.length_eq_zero_iff.mp balanced
    by_cases marked : p.marked
    · simp [build, Pending.begun, Pending.cutOff, marked] at failed
      subst failed
      exact ⟨nofun, nofun⟩
    · simp [build, Pending.begun, closed, marked] at failed
  | cons t rest ih =>
    have step := Pending.fed_feed p t
    generalize fed : p.feed t = result at step
    cases step with
    | opens room =>
      rw [build_opens room] at failed
      exact ih (p := ⟨⟨p.marked, []⟩ :: p.lists, false⟩) (balanced.tail nofun) failed
    | @closes l outer =>
      rw [build_add fed] at failed
      refine ih ?_ failed
      rw [length_place]
      exact balanced.tail fun _ => Nat.succ_ne_zero outer.length
    | adds means =>
      have after := balanced.tail fun same => absurd same means.neutral.2.1
      rw [means.nesting_eq] at after
      rw [build_add fed] at failed
      exact ih (by rwa [length_place]) failed
    | @marks lists => exact ih (p := ⟨lists, true⟩) (balanced.tail nofun) failed
    | meansNothing _ unmade =>
      obtain ⟨_, digits, _, _, rfl⟩ := Atom.ofItem_error unmade
      rw [build, fed] at failed
      cases failed
      exact ⟨nofun, nofun⟩
    | _ =>
      rw [build, fed] at failed
      cases failed
      exact ⟨nofun, nofun⟩

/-- Either all tokens are read or the first offence is named. A quote mark that waits is judged
with the tokens after it. -/
theorem judged_build (done : List Value) (lists : List OpenList) (tokens : List Token)
    (countable : Token.Countable tokens)
    (shallow : Token.Shallow lists.length tokens) (balanced : Token.Balanced lists.length tokens) :
    Token.Judged lists.length tokens (build done ⟨lists, false⟩ tokens).2 ∧
    Token.Judged lists.length (.item Pending.quoteMark :: tokens)
      (build done ⟨lists, true⟩ tokens).2 := by
  induction tokens generalizing done lists with
  | nil =>
    have closed : lists = [] := List.length_eq_zero_iff.mp balanced
    subst closed
    exact ⟨.inl rfl, Token.judged_offence (.inr ⟨rfl, nofun⟩)⟩
  | cons t rest ih =>
    have room (opening : t = .lparen) : lists.length < Pending.nestingLimit := by
      subst opening
      exact shallow.tail.le
    have later (inside : t = .rparen → lists.length ≠ 0) (done : List Value)
        (lists' : List OpenList) (depth : lists'.length = Token.nesting lists.length t) :
        Token.Judged (Token.nesting lists.length t) rest (build done ⟨lists', false⟩ rest).2 := by
      rw [← depth]
      exact (ih done lists' countable.tail (depth ▸ shallow.tail) (depth ▸ balanced.tail inside)).1
    constructor
    · have step := Pending.fed_feed ⟨lists, false⟩ t
      generalize fed : Pending.feed ⟨lists, false⟩ t = result at step
      cases step with
      | opens =>
        rw [build_opens (room rfl)]
        exact (later nofun done _ rfl).cons (Token.not_offends nofun nofun)
      | opensTooDeep full => exact absurd (room rfl) (Nat.not_lt_of_le full)
      | @closes l outer =>
        have inside : (l :: outer).length ≠ 0 := Nat.succ_ne_zero _
        rw [build_add fed]
        exact (later (fun _ => inside) _ _ (length_place _ _ _)).cons
          (Token.not_offends nofun fun _ => inside)
      | closesNothing =>
        rw [build, fed]
        exact Token.judged_offence (.inl ⟨rfl, rfl⟩)
      | adds means =>
        obtain ⟨-, noClosing, noMark⟩ := means.neutral
        rw [build_add fed]
        refine (later (absurd · noClosing) _ _ ?_).cons
          (Token.not_offends (absurd · noMark) (absurd · noClosing))
        rw [length_place, means.nesting_eq]
      | meansNothing _ unmade =>
        obtain ⟨negative, digits, integer, long, -⟩ := Atom.ofItem_error unmade
        exact absurd (countable _ List.mem_cons_self negative digits integer)
          (Nat.not_le_of_lt long)
      | marks => exact (ih done lists countable.tail shallow.tail (balanced.tail nofun)).2
    · have step := Pending.fed_feed ⟨lists, true⟩ t
      generalize fed : Pending.feed ⟨lists, true⟩ t = result at step
      cases step with
      | opens =>
        rw [build_opens (room rfl)]
        have judged := (later nofun done (⟨true, []⟩ :: lists) rfl).cons
          (Token.not_offends nofun nofun)
        exact Token.Judged.cons judged (Token.not_offends (fun _ => rfl) nofun)
      | opensTooDeep full => exact absurd (room rfl) (Nat.not_lt_of_le full)
      | unquotes other =>
        rw [build, fed]
        exact Token.judged_offence (.inr ⟨rfl, fun same => other (Option.some.inj same)⟩)

end

theorem Token.tokenize_eq_ok {text : String} {tokens : List Token}
    (lexed : lex text.toList = (tokens, none)) (nonempty : tokens ≠ [])
    (balanced : tokens.count .lparen = tokens.count .rparen) : tokenize text = .ok tokens := by
  simp [tokenize, lexed, nonempty, balanced]

theorem Token.lex_of_tokenize {text : String} {tokens : List Token}
    (found : tokenize text = .ok tokens) : lex text.toList = (tokens, none) := by
  simp only [tokenize] at found
  split at found
  · cases found
  · next lexed =>
    rw [lexed]
    split at found <;> [skip; split at found] <;> cases found
    rfl

theorem Token.of_tokenize_ok {text : String} {tokens : List Token}
    (found : tokenize text = .ok tokens) : tokens ≠ [] ∧ Balanced 0 tokens := by
  simp only [tokenize] at found
  split at found
  · cases found
  · split at found
    · cases found
    · split at found
      · cases found
      · next nonempty balanced =>
        cases found
        refine ⟨fun empty => nonempty (by simp [empty]), ?_⟩
        rw [Balanced, Nat.zero_add]
        exact Decidable.not_not.mp balanced

theorem readAll_of_untokenized {text : String} {e : ReadError}
    (failed : Token.tokenize text = .error e) : readAll text = .error e := by
  rw [readAll, failed]
  rfl

theorem readAll_of_tokenize {text : String} {tokens : List Token}
    (found : Token.tokenize text = .ok tokens) :
    readAll text = match build [] .start tokens with
      | (values, none) => .ok values
      | (_, some e) => .error e := by
  rw [readAll, found, ← TokenStream.expressions_eq_build]
  rfl

section

variable {text : String} {tokens : List Token} (found : Token.tokenize text = .ok tokens)

include found

theorem readAll_expressions (shallow : Token.Shallow 0 tokens) {values : List Value}
    (expressions : Expressions tokens values) : readAll text = .ok values := by
  have built := builds_expressions expressions [] [] [] shallow
  rw [List.append_nil] at built
  change build [] .start tokens = _ at built
  rw [readAll_of_tokenize found, built]
  simp [place, build, Pending.begun]

theorem readAll_firstOffence (countable : Token.Countable tokens) (shallow : Token.Shallow 0 tokens)
    (ungrammatical : ¬ Grammatical tokens) :
    ∃ i t, Token.FirstOffence 0 tokens i ∧ tokens[i]? = some t ∧
      readAll text = .error (.erroneousToken t.lexeme) := by
  obtain ⟨-, balanced⟩ := Token.of_tokenize_ok found
  have judged := (judged_build [] [] tokens countable shallow balanced).1
  rcases judged with fine | ⟨i, t, first, at_, named⟩
  · exact absurd (completes_of_build false tokens fine) ungrammatical
  · refine ⟨i, t, first, at_, ?_⟩
    have read := readAll_of_tokenize found
    change (build [] .start tokens).2 = _ at named
    generalize build [] .start tokens = result at read named
    obtain ⟨values, failure⟩ := result
    cases named
    exact read

/-- The tree builder finds no expression missing and no parenthesis. -/
theorem expressions_of_tokenize {e : ReadError}
    (kind : e = .mismatchedParens ∨ e = .emptyExpression) :
    (TokenStream.ofTokens tokens).expressions.1.2 ≠ some e ∧
    (TokenStream.ofTokens tokens).expression.1 ≠ .error e := by
  obtain ⟨nonempty, balanced⟩ := Token.of_tokenize_ok found
  have never : (build [] .start tokens).2 ≠ some e := by
    intro failed
    obtain ⟨mismatched, empty⟩ := build_balanced (p := .start) tokens balanced failed
    exact kind.elim mismatched empty
  refine ⟨?_, fun failed => never (TokenStream.build_of_expression_error nonempty failed)⟩
  rw [TokenStream.expressions_eq_build]
  exact never

end

/-- Reading accepts the concatenations of expressions, as their values, and tells all failures
apart: a string that is not closed comes before no tokens at all, that before parentheses in
unequal number, and these before the first token that fits nowhere. Once the tokens are found, no
failure is about their number or that of the parentheses. -/
theorem readAll_accepts_expressions (text : String) :
    let tokens := (Token.lex text.toList).1
    let unclosed := (Token.lex text.toList).2
    (∀ raw, unclosed = some raw → readAll text = .error (.erroneousToken raw)) ∧
    (unclosed = none → tokens = [] → readAll text = .error .emptyExpression) ∧
    (unclosed = none → tokens ≠ [] → tokens.count .lparen ≠ tokens.count .rparen →
      readAll text = .error .mismatchedParens) ∧
    (unclosed = none → tokens ≠ [] → tokens.count .lparen = tokens.count .rparen →
      Token.Countable tokens → Token.Shallow 0 tokens →
      (Grammatical tokens → ∃ values, Expressions tokens values) ∧
      (∀ values, Expressions tokens values → readAll text = .ok values) ∧
      (¬ Grammatical tokens → ∃ i t, Token.FirstOffence 0 tokens i ∧
        tokens[i]? = some t ∧ readAll text = .error (.erroneousToken t.lexeme))) ∧
    ∀ found, Token.tokenize text = .ok found → ∀ e, e = .mismatchedParens ∨ e = .emptyExpression →
      (TokenStream.ofTokens found).expressions.1.2 ≠ some e ∧
      (TokenStream.ofTokens found).expression.1 ≠ .error e := by
  intro tokens unclosed
  have lexed : Token.lex text.toList = (tokens, unclosed) := rfl
  refine ⟨fun raw open_ => ?_, fun closed empty => ?_, fun closed nonempty unequal => ?_,
    fun closed nonempty equal countable shallow => ?_, fun found tokenized e kind => ?_⟩
  · rw [open_] at lexed
    exact readAll_of_untokenized (by simp [Token.tokenize, lexed])
  · rw [closed, empty] at lexed
    exact readAll_of_untokenized (by simp [Token.tokenize, lexed])
  · rw [closed] at lexed
    exact readAll_of_untokenized (by simp [Token.tokenize, lexed, nonempty, unequal])
  · rw [closed] at lexed
    have found := Token.tokenize_eq_ok lexed nonempty equal
    exact ⟨fun grammatical => grammatical.expressions countable,
      fun values => readAll_expressions found shallow,
      readAll_firstOffence found countable shallow⟩
  · exact expressions_of_tokenize tokenized kind

/-- `'(a) 2` is a quoted list and a number. In `(a ' b)) (` the third token offends, and later the
sixth one, which closes nothing. -/
theorem readAll_accepts_expressions_quoted :
    let good := [Token.item "'", .lparen, .item "a", .rparen, .item "2"]
    let bad := [Token.lparen, .item "a", .item "'", .item "b", .rparen, .rparen, .lparen]
    Token.lex "'(a) ; one\n2".toList = (good, none) ∧ Token.lex "(a ' b)) (".toList = (bad, none) ∧
    Token.Countable good ∧ Token.Countable bad ∧ Token.Shallow 0 good ∧ Token.Shallow 0 bad ∧
    Expressions good [.list [.symbol "quote", .list [.symbol "a"]], .int 2] ∧
    ¬ Grammatical bad ∧
    readAll "'(a) ; one\n2" = .ok [.list [.symbol "quote", .list [.symbol "a"]], .int 2] ∧
    ∃ i t, Token.FirstOffence 0 bad i ∧ bad[i]? = some t ∧
      readAll "(a ' b)) (" = .error (.erroneousToken t.lexeme) := by
  intro good bad
  have lexed : Token.lex "'(a) ; one\n2".toList = (good, none) := by decide +kernel
  have lexed' : Token.lex "(a ' b)) (".toList = (bad, none) := by decide +kernel
  have countable : Token.Countable good := by
    intro text member negative digits found
    simp [good] at member
    rcases member with rfl | rfl | rfl <;> cases found
    decide
  have countable' : Token.Countable bad := by
    intro text member negative digits found
    simp [bad] at member
    rcases member with rfl | rfl | rfl <;> cases found
  have shallow : Token.Shallow 0 good := Token.shallow_of_length (by decide)
  have shallow' : Token.Shallow 0 bad := Token.shallow_of_length (by decide)
  have expressions : Expressions good [.list [.symbol "quote", .list [.symbol "a"]], .int 2] := by
    have a : Token.Means (.item "a") (.symbol "a") := .item (by decide) rfl
    have two : Token.Means (.item "2") (.int 2) := .item (by decide) rfl
    exact .quoted (.atom a .nil) (.atom two .nil)
  obtain ⟨-, -, -, accepts, -⟩ := readAll_accepts_expressions "'(a) ; one\n2"
  obtain ⟨-, -, -, accepts', -⟩ := readAll_accepts_expressions "(a ' b)) ("
  rw [lexed] at accepts
  rw [lexed'] at accepts'
  obtain ⟨-, reads, -⟩ := accepts rfl nofun rfl countable shallow
  obtain ⟨valued, reads', names⟩ := accepts' rfl nofun rfl countable' shallow'
  have ran : (readAll "(a ' b)) (").toBool = false := by decide +kernel
  have ungrammatical : ¬ Grammatical bad := by
    intro grammatical
    obtain ⟨values, expressions⟩ := valued grammatical
    rw [reads' values expressions] at ran
    cases ran
  exact ⟨lexed, lexed', countable, countable', shallow, shallow', expressions, ungrammatical,
    reads _ expressions, names ungrammatical⟩

end SmallLisp
