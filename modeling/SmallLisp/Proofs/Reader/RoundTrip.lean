import SmallLisp.Proofs.Reader.Atom
import SmallLisp.Proofs.Reader.Gap

/-! Reading undoes printing. The tokens of a value's text are known from the value; the
scanner finds them wherever the text stands, and the tree builder makes the value of them in
whatever list is open. -/
namespace SmallLisp

namespace Value

/-- The values whose text says all about them: no procedures, symbols by readable names, and
at most so many lists inside each other. -/
inductive Readable : Nat → Value → Prop where
  | symbol {depth : Nat} {s : String} : Atom.Readable s → Readable depth (.symbol s)
  | str {depth : Nat} (text : String) : Readable depth (.str text)
  | int {depth : Nat} {n : Int} : InRange n → Readable depth (.int n)
  | float {depth : Nat} (x : Binary64) : Readable depth (.float x)
  | bool {depth : Nat} (b : Bool) : Readable depth (.bool b)
  | nil {depth : Nat} : Readable depth .nil
  | list {depth : Nat} {items : List Value} : (∀ v ∈ items, Readable depth v) →
      Readable (depth + 1) (.list items)

/-- The values that are written in tokens: no procedures, and symbols by names. -/
inductive Worded : Value → Prop where
  | symbol {s : String} : IsName s → Worded (.symbol s)
  | str (text : String) : Worded (.str text)
  | int (n : Int) : Worded (.int n)
  | float (x : Binary64) : Worded (.float x)
  | bool (b : Bool) : Worded (.bool b)
  | nil : Worded .nil
  | list {items : List Value} : (∀ v ∈ items, Worded v) → Worded (.list items)

theorem Sound.worded {v : Value} (sound : v.Sound IsName 0) : v.Worded := by
  induction sound with
  | symbol named => exact .symbol named
  | str text => exact .str text
  | int _ => exact .int _
  | float x => exact .float x
  | bool b => exact .bool b
  | nil => exact .nil
  | list _ ih => exact .list ih
  | proc _ _ _ known => exact absurd known (Nat.not_lt_zero _)

mutual

/-- The tokens of a value's text. -/
def tokens : Value → List Token
  | .str text => [.string (String.ofList (stringChars text.toList))]
  | .list items => .lparen :: tokensOfItems items ++ [.rparen]
  | v => [.item v.text]

def tokensOfItems : List Value → List Token
  | [] => []
  | v :: rest => tokens v ++ tokensOfItems rest

end

/-- Induction over readable values as their texts tell them apart: what is neither a string
nor a list is a single item. -/
theorem Readable.induct {motive : Nat → Value → Prop}
    (str : ∀ depth text, motive depth (.str text))
    (item : ∀ depth v, v.tokens = [.item v.text] → Atom.Writes v.text v → motive depth v)
    (list : ∀ depth items, (∀ v ∈ items, motive depth v) → motive (depth + 1) (.list items))
    {depth : Nat} {v : Value} (readable : v.Readable depth) : motive depth v := by
  have same {text : String} {v : Value} (chars : v.chars = text.toList)
      (writes : Atom.Writes text v) : Atom.Writes v.text v := by
    rw [Value.text, chars, String.ofList_toList]
    exact writes
  induction readable with
  | symbol readable => exact item _ _ rfl (same rfl readable.writes)
  | str text => exact str _ text
  | int fits => exact item _ _ rfl (same rfl (Atom.writes_int fits))
  | float x => exact item _ _ rfl (Atom.writes_float x)
  | bool b =>
    cases b with
    | true => exact item _ _ rfl (Atom.writes_constant (by simp [Value.text, chars]))
    | false => exact item _ _ rfl (Atom.writes_constant (by simp [Value.text, chars]))
  | nil => exact item _ _ rfl (Atom.writes_constant (by simp [Value.text, chars]))
  | list _ ih => exact list _ _ ih

theorem Readable.sound {depth : Nat} {v : Value} (readable : v.Readable depth) :
    v.Sound Atom.Readable 0 := by
  induction readable with
  | symbol readable => exact .symbol readable
  | str text => exact .str text
  | int fits => exact .int fits
  | float x => exact .float x
  | bool b => exact .bool b
  | nil => exact .nil
  | list _ ih => exact .list ih

end Value

namespace Token

/-- Wherever the text stands, if no item goes on after it, it is scanned as these tokens. -/
def Lexes (text : List Char) (tokens : List Token) : Prop :=
  ∀ rest, Stops rest → lex (text ++ rest) = (tokens ++ (lex rest).1, (lex rest).2)

theorem lexes_items {items : List Value} (each : ∀ v ∈ items, Lexes v.chars v.tokens) :
    Lexes ([' '].intercalate (Value.charsOfItems items)) (Value.tokensOfItems items) := by
  intro rest stop
  induction items with
  | nil => rfl
  | cons v more ih =>
    have first := each v (by simp)
    have later := ih fun w member => each w (by simp [member])
    cases more with
    | nil => simpa [Value.charsOfItems, Value.tokensOfItems] using first rest stop
    | cons w more =>
      have space : Gap [' '] := .blank (by decide) .nil
      have after := first (' ' :: ([' '].intercalate (Value.charsOfItems (w :: more)) ++ rest))
        (stops_cons (by decide) _)
      have skipped := lex_gap space ([' '].intercalate (Value.charsOfItems (w :: more)) ++ rest)
      rw [List.singleton_append] at skipped
      rw [skipped, later] at after
      simpa [Value.charsOfItems, List.intercalate_cons_cons, Value.tokensOfItems] using after

/-- Names of symbols need not be readable for that, and no integer need fit in 64 bits. -/
theorem lexes_of_worded {v : Value} (worded : v.Worded) : Lexes v.chars v.tokens := by
  have item {v : Value} (single : v.tokens = [.item v.text]) (named : IsName v.text) :
      Lexes v.chars v.tokens := by
    intro rest stop
    have found := lex_of_scan (scan_item named stop)
    rw [Value.text, String.toList_ofList] at found
    rw [single, found]
    rfl
  have same {text : String} {v : Value} (chars : v.chars = text.toList) (named : IsName text) :
      IsName v.text := by
    rw [Value.text, chars, String.ofList_toList]
    exact named
  induction worded with
  | symbol named => exact item rfl (same rfl named)
  | str text => exact fun rest _ => lex_of_scan (scan_string text.toList rest)
  | int n =>
    exact item rfl (same rfl
      (Atom.isName_of_numberChars (Atom.toString_int_ne_nil n) (Atom.mem_numberChars_of_int n)))
  | float x => exact item rfl (Atom.writes_float x).named
  | bool b => cases b <;> exact item rfl (isName_of_all (by decide) (by decide))
  | nil => exact item rfl (isName_of_all (by decide) (by decide))
  | @list items _ each =>
    intro rest _
    have inside := lexes_items each (')' :: rest) (stops_cons (by decide) rest)
    rw [lex_rparen] at inside
    have whole := lex_lparen ([' '].intercalate (Value.charsOfItems items) ++ ')' :: rest)
    rw [inside] at whole
    simpa [Value.chars, Value.tokens] using whole

theorem lex_text {v : Value} (worded : v.Worded) : lex v.text.toList = (v.tokens, none) := by
  have ended : FinalGap [] := .closed .nil
  have lexed := lexes_of_worded worded [] (stops_finalGap ended)
  simpa [Value.text, lex_finalGap ended] using lexed

theorem lexes_chars {depth : Nat} {v : Value} (readable : v.Readable depth) :
    Lexes v.chars v.tokens := lexes_of_worded (readable.sound.imp fun _ named => named.named).worded

/-- Each list is closed. -/
theorem count_tokens {depth : Nat} {v : Value} (readable : v.Readable depth) :
    v.tokens.count .lparen = v.tokens.count .rparen := by
  refine Value.Readable.induct
    (motive := fun _ v => v.tokens.count .lparen = v.tokens.count .rparen) ?_ ?_ ?_ readable
  · intro _ text
    simp [Value.tokens]
  · intro _ v single _
    simp [single]
  · intro _ items each
    have inside : (Value.tokensOfItems items).count .lparen =
        (Value.tokensOfItems items).count .rparen := by
      induction items with
      | nil => rfl
      | cons v more ih =>
        have first := each v (by simp)
        have later := ih fun w member => each w (by simp [member])
        simp only [Value.tokensOfItems, List.count_append, first, later]
    simp [Value.tokens, inside]

end Token

namespace Pending

variable {lists : List OpenList}

theorem feed_item {v : Value} {text : String} (writes : Atom.Writes text v) :
    feed ⟨lists, false⟩ (.item text) = .ok (add v lists) := by
  change (if text = quoteMark then _ else (Atom.ofItem text).map (add · lists)) = _
  rw [if_neg writes.unmarked, writes.read]
  rfl

theorem feed_string (text : String) :
    feed ⟨lists, false⟩ (.string (String.ofList (stringChars text.toList))) =
      .ok (add (.str text) lists) := by
  have read := Atom.unescape_stringChars text
  change Except.ok (add (.str (Atom.unescape _)) lists) = _
  rw [read]

theorem feed_lparen (room : lists.length < nestingLimit) :
    feed ⟨lists, false⟩ .lparen = .ok (.more ⟨⟨false, []⟩ :: lists, false⟩) := by
  change openList ⟨lists, false⟩ false = _
  rw [openList, if_pos room]

theorem feed_rparen (items : List Value) :
    feed ⟨⟨false, items.reverse⟩ :: lists, false⟩ .rparen = .ok (add (.list items) lists) := by
  change Except.ok (add (.list items.reverse.reverse) lists) = _
  rw [List.reverse_reverse]

end Pending

namespace TokenStream

variable {p : Pending} {t : Token} {rest : List Token} {lists : List OpenList}

/-- What becomes of the rest of a stream after a step. -/
def resume (s : TokenStream) : Pending.Step → Reading Value
  | .done v => (.ok v, s)
  | .more p => s.finish p

/-- One token of a stream, and then the rest. -/
theorem finish_eq (p : Pending) (s : TokenStream) :
    s.finish p = match s.advance with
      | (.error e, s') => (.error e, s')
      | (.ok none, s') => (.error p.cutOff, s')
      | (.ok (some t), s') =>
        match p.feed t with
        | .error e => (.error e, s')
        | .ok step => s'.resume step := by
  rw [finish]
  split
  · next taken => rw [taken]
  · next taken => rw [taken]
  · next t s' taken =>
    rw [taken]
    simp only
    split
    · next failed => rw [failed]
    · next v fed => rw [fed]; rfl
    · next p' fed => rw [fed]; rfl

theorem finish_cons {step : Pending.Step} (fed : p.feed t = .ok step) :
    (ofTokens (t :: rest)).finish p = (ofTokens rest).resume step := by
  have taken : (ofTokens (t :: rest)).advance = (.ok (some t), ofTokens rest) := rfl
  rw [finish_eq, taken]
  simp only [fed]

theorem finish_more {p' : Pending} (fed : p.feed t = .ok (.more p')) :
    (ofTokens (t :: rest)).finish p = (ofTokens rest).finish p' := finish_cons fed

/-- A token that has been looked at is the next one still. -/
theorem finish_ahead : (TokenStream.mk (.tokens rest) (some t)).finish p =
    (ofTokens (t :: rest)).finish p := by
  have ahead : (TokenStream.mk (.tokens rest) (some t)).advance = (.ok (some t), ofTokens rest) := rfl
  have taken : (ofTokens (t :: rest)).advance = (.ok (some t), ofTokens rest) := rfl
  rw [finish_eq, finish_eq, ahead, taken]

/-- A value's tokens are taken as the value, in whatever list is open. -/
def Takes (depth : Nat) (v : Value) : Prop :=
  ∀ lists rest, lists.length + depth ≤ Pending.nestingLimit →
    (ofTokens (v.tokens ++ rest)).finish ⟨lists, false⟩ =
      (ofTokens rest).resume (Pending.add v lists)

theorem finish_items {depth : Nat} {items : List Value} (each : ∀ v ∈ items, Takes depth v)
    (room : lists.length + 1 + depth ≤ Pending.nestingLimit) (done : List Value) :
    (ofTokens (Value.tokensOfItems items ++ rest)).finish ⟨⟨false, done⟩ :: lists, false⟩ =
      (ofTokens rest).finish ⟨⟨false, items.reverse ++ done⟩ :: lists, false⟩ := by
  induction items generalizing done with
  | nil => rfl
  | cons v more ih =>
    have first := each v (by simp) (⟨false, done⟩ :: lists) (Value.tokensOfItems more ++ rest) room
    have later := ih (fun w member => each w (by simp [member])) (v :: done)
    rw [Value.tokensOfItems, List.append_assoc, first, List.reverse_cons, List.append_assoc]
    exact later

theorem takes_tokens {depth : Nat} {v : Value} (readable : v.Readable depth) : Takes depth v := by
  refine readable.induct ?_ ?_ ?_
  · intro _ text lists rest _
    exact finish_cons (Pending.feed_string text)
  · intro _ v single writes lists rest _
    rw [single]
    exact finish_cons (Pending.feed_item writes)
  · intro depth items each lists rest room
    have inside : (ofTokens (Value.tokensOfItems items ++ .rparen :: rest)).finish
        ⟨⟨false, []⟩ :: lists, false⟩ = _ := finish_items each (by omega) []
    rw [List.append_nil, finish_cons (Pending.feed_rparen items)] at inside
    have below : lists.length < Pending.nestingLimit := by omega
    have opened : (ofTokens (.lparen :: (Value.tokensOfItems items ++ .rparen :: rest))).finish
        ⟨lists, false⟩ = _ := finish_cons (Pending.feed_lparen below)
    rw [resume, inside] at opened
    simpa [Value.tokens] using opened

/-- The tokens of values make the values, each one as a whole. -/
theorem expressionsFrom_tokens {values : List Value}
    (readable : ∀ v ∈ values, v.Readable Pending.nestingLimit) (done : List Value) :
    ((ofTokens (values.flatMap Value.tokens)).expressionsFrom done).1 =
      (done.reverse ++ values, none) := by
  induction values generalizing done with
  | nil => simp [expressionsFrom, ofTokens, peek, TokenSource.next]
  | cons v more ih =>
    have later := ih (fun w member => readable w (by simp [member])) (v :: done)
    have whole := takes_tokens (readable v (by simp)) [] (more.flatMap Value.tokens) (by simp)
    obtain ⟨t, tokens, same⟩ : ∃ t tokens, v.tokens = t :: tokens := by
      cases v <;> exact ⟨_, _, rfl⟩
    rw [same, List.cons_append, ← finish_ahead] at whole
    change finish .start _ = (.ok v, ofTokens (more.flatMap Value.tokens)) at whole
    have looked : (ofTokens ((v :: more).flatMap Value.tokens)).peek =
        (.ok (some t), ⟨.tokens (tokens ++ more.flatMap Value.tokens), some t⟩) := by
      rw [List.flatMap_cons, same]
      rfl
    rw [expressionsFrom, looked]
    simp only [expression]
    split
    · next failed => rw [whole] at failed; cases failed
    · next read =>
      rw [whole] at read
      cases read
      simpa using later

end TokenStream

/-- Texts of values with gaps after them. No two texts stand side by side. -/
inductive Layout : List Value → List Char → Prop where
  | last (v : Value) {gap : List Char} : FinalGap gap → Layout [v] (v.text.toList ++ gap)
  | next (v : Value) {values : List Value} {gap text : List Char} : Gap gap → gap ≠ [] →
      Layout values text → Layout (v :: values) (v.text.toList ++ (gap ++ text))

variable {values : List Value} {text : List Char}

theorem lex_layout (layout : Layout values text)
    (readable : ∀ v ∈ values, v.Readable Pending.nestingLimit) :
    Token.lex text = (values.flatMap Value.tokens, none) := by
  induction layout with
  | last v skipped =>
    have lexes := Token.lexes_chars (readable v (by simp)) _ (Token.stops_finalGap skipped)
    rw [Value.text, String.toList_ofList, lexes, Token.lex_finalGap skipped]
    simp
  | @next v more gap text skipped some _ ih =>
    have lexes := Token.lexes_chars (readable v (by simp)) _ (Token.stops_gap skipped some text)
    have later := ih fun w member => readable w (by simp [member])
    rw [Value.text, String.toList_ofList, lexes, Token.lex_gap skipped, later]
    simp

theorem tokenize_layout (layout : Layout values text)
    (readable : ∀ v ∈ values, v.Readable Pending.nestingLimit) {gap : List Char}
    (skipped : Gap gap) :
    Token.tokenize (String.ofList (gap ++ text)) = .ok (values.flatMap Value.tokens) := by
  have lexed : Token.lex (String.ofList (gap ++ text)).toList = (values.flatMap Value.tokens, none) := by
    rw [String.toList_ofList, Token.lex_gap skipped, lex_layout layout readable]
  have nonempty : (values.flatMap Value.tokens).isEmpty = false := by
    cases layout with
    | last v => cases v <;> rfl
    | next v => cases v <;> rfl
  have closed : (values.flatMap Value.tokens).count .lparen =
      (values.flatMap Value.tokens).count .rparen := by
    clear layout lexed nonempty
    induction values with
    | nil => rfl
    | cons v more ih =>
      have first := Token.count_tokens (readable v (by simp))
      have later := ih fun w member => readable w (by simp [member])
      simp only [List.flatMap_cons, List.count_append, first, later]
  rw [Token.tokenize, lexed]
  simp [nonempty, closed]

/-- Reading undoes printing, whatever the layout: the texts of readable values, with gaps of
any kind before, between and after them, are read as these values and no others. -/
theorem readAll_layout (readable : ∀ v ∈ values, v.Readable Pending.nestingLimit)
    {gap : List Char} (skipped : Gap gap) (layout : Layout values text) :
    readAll (String.ofList (gap ++ text)) = .ok values := by
  have made : (TokenStream.ofTokens (values.flatMap Value.tokens)).expressions.1 = (values, none) :=
    TokenStream.expressionsFrom_tokens readable []
  rw [readAll, tokenize_layout layout readable skipped]
  simp only [bind, Except.bind, made]
  rfl

/-- The first of the values is the one that is read alone. -/
theorem read_layout {v : Value} (readable : ∀ w ∈ v :: values, w.Readable Pending.nestingLimit)
    {gap : List Char} (skipped : Gap gap) (layout : Layout (v :: values) text) :
    read (String.ofList (gap ++ text)) = .ok v := by
  have made := TokenStream.takes_tokens (readable v (by simp)) [] (values.flatMap Value.tokens)
    (by simp)
  have first : (TokenStream.ofTokens ((v :: values).flatMap Value.tokens)).expression.1 = .ok v :=
    congrArg Prod.fst made
  rw [read, tokenize_layout layout readable skipped]
  exact first

/-- A list with a string of delimiters, the least integer and a negative zero, with a comment
between them and an open one at the end. -/
theorem readAll_layout_commented :
    let values : List Value :=
      [.list [.symbol "'a", .str "(;\"", .list []], .int Value.leastInt, .float (.zero true)]
    let text := "('a \"(;\\\"\" ()) ; two\n-9223372036854775808\t-0.0;".toList
    (∀ v ∈ values, v.Readable Pending.nestingLimit) ∧ Gap ['\n'] ∧ Layout values text ∧
    readAll (String.ofList (['\n'] ++ text)) = .ok values := by
  intro values text
  have named : Atom.Readable "'a" :=
    ⟨Token.isName_of_all (by decide) (by decide), by decide, by decide, by decide +kernel, rfl⟩
  have readable : ∀ v ∈ values, v.Readable Pending.nestingLimit := by
    have inner : (Value.list []).Readable 999 := .list nofun
    have outer : (Value.list [.symbol "'a", .str "(;\"", .list []]).Readable 1000 :=
      .list (by simp [Value.Readable.symbol named, Value.Readable.str, inner])
    have least : (Value.int Value.leastInt).Readable 1000 := .int (by decide)
    exact List.forall_mem_cons.mpr ⟨outer, List.forall_mem_cons.mpr ⟨least,
      List.forall_mem_cons.mpr ⟨.float _, nofun⟩⟩⟩
  have lead : Gap ['\n'] := .blank (by decide) .nil
  have comment : Gap [' ', ';', ' ', 't', 'w', 'o', '\n'] :=
    .blank (by decide) (@Gap.comment [' ', 't', 'w', 'o'] [] (by decide) .nil)
  have tab : Gap ['\t'] := .blank (by decide) .nil
  have final : FinalGap [';'] := .opened .nil (by decide)
  have layout : Layout values text := by
    have same : text = (Value.list [.symbol "'a", .str "(;\"", .list []]).text.toList ++
        ([' ', ';', ' ', 't', 'w', 'o', '\n'] ++ ((Value.int Value.leastInt).text.toList ++
          (['\t'] ++ ((Value.float (.zero true)).text.toList ++ [';'])))) := by decide +kernel
    rw [same]
    exact .next _ comment (by decide) (.next _ tab (by decide) (.last _ final))
  exact ⟨readable, lead, layout, readAll_layout readable lead layout⟩

end SmallLisp
