import SmallLisp.Reader.Expression

/-! Reading from a stream of tokens. A text is scanned no further than the tokens that
are asked for, so a string that is not closed does no harm before it is reached; after
it the stream has ended. -/
namespace SmallLisp

/-- Where tokens come from: a text still to be scanned, or a list. -/
inductive TokenSource where
  | text (rest : List Char)
  | tokens (rest : List Token)

namespace TokenSource

def size : TokenSource → Nat
  | .text rest => rest.length
  | .tokens rest => rest.length

def next : TokenSource → Except ReadError (Option Token) × TokenSource
  | .text rest =>
    match Token.scan rest with
    | .ended => (.ok none, .text [])
    | .unterminated raw => (.error (.erroneousToken raw), .text [])
    | .token t rest => (.ok (some t), .text rest)
  | .tokens [] => (.ok none, .tokens [])
  | .tokens (t :: rest) => (.ok (some t), .tokens rest)

theorem size_next_lt {s s' : TokenSource} {t : Token} (h : s.next = (.ok (some t), s')) :
    s'.size < s.size := by
  unfold next at h
  split at h
  · split at h <;> cases h
    next scanned => exact Token.length_lt_of_scan scanned
  · cases h
  · cases h; exact Nat.lt_succ_self _

end TokenSource

/-- At most one token has been looked at and not taken. -/
structure TokenStream where
  source : TokenSource
  ahead : Option Token

namespace TokenStream

def ofText (text : String) : TokenStream := ⟨.text text.toList, none⟩
def ofTokens (tokens : List Token) : TokenStream := ⟨.tokens tokens, none⟩

/-- The tokens that are left are no more than this. -/
def size (s : TokenStream) : Nat := s.source.size + if s.ahead.isSome then 1 else 0

/-- What reading from a stream gives, and the stream after it. -/
abbrev Reading (α : Type) := Except ReadError α × TokenStream

/-- The next token, which stays where it is. -/
def peek (s : TokenStream) : Reading (Option Token) :=
  match s.ahead with
  | some t => (.ok (some t), s)
  | none =>
    match s.source.next with
    | (.ok t, source) => (.ok t, ⟨source, t⟩)
    | (.error e, source) => (.error e, ⟨source, none⟩)

/-- The next token, taken off the stream. -/
def advance (s : TokenStream) : Reading (Option Token) :=
  match s.ahead with
  | some t => (.ok (some t), { s with ahead := none })
  | none =>
    match s.source.next with
    | (r, source) => (r, ⟨source, none⟩)

theorem size_advance_lt {s s' : TokenStream} {t : Token}
    (h : s.advance = (.ok (some t), s')) : s'.size < s.size := by
  unfold advance at h
  split at h
  · next ahead => cases h; simp [size, ahead]
  · next ahead =>
    split at h
    next taken =>
      cases h
      have := TokenSource.size_next_lt taken
      simpa [size, ahead] using this

theorem size_peek_le {s s' : TokenStream} {t : Token}
    (h : s.peek = (.ok (some t), s')) : s'.size ≤ s.size := by
  unfold peek at h
  split at h
  · cases h; exact Nat.le_refl _
  · next ahead =>
    split at h <;> cases h
    next taken =>
      have := TokenSource.size_next_lt taken
      simp [size, ahead]; omega

/-- Takes tokens until the pending expression is complete. -/
def finish (p : Pending) (s : TokenStream) : Reading Value :=
  match _ : s.advance with
  | (.error e, s') => (.error e, s')
  | (.ok none, s') => (.error p.cutOff, s')
  | (.ok (some t), s') =>
    match p.feed t with
    | .error e => (.error e, s')
    | .ok (.done v) => (.ok v, s')
    | .ok (.more p') => finish p' s'
termination_by s.size
decreasing_by exact size_advance_lt (by assumption)

theorem size_finish_lt (p : Pending) (s : TokenStream) {s' : TokenStream} {v : Value}
    (h : s.finish p = (.ok v, s')) : s'.size < s.size := by
  fun_induction finish p s with
  | case1 | case2 | case3 => cases h
  | case4 p s t s₁ taken _ _ => cases h; exact size_advance_lt taken
  | case5 p s t s₁ taken p₁ _ ih => exact Nat.lt_trans (ih h) (size_advance_lt taken)

/-- The next expression. -/
def expression (s : TokenStream) : Reading Value := finish .start s

/-- The expressions up to the parenthesis that closes the list around them. -/
def listItems (s : TokenStream) : Reading (List Value) :=
  match finish .insideList s with
  | (.ok (.list items), s') => (.ok items, s')
  | (.ok v, s') => (.ok [v], s')
  | (.error e, s') => (.error e, s')

/-- Reads to the end of the stream, or to a failure, which leaves the expressions before
it, here newest first, as they are. -/
def expressionsFrom (done : List Value) (s : TokenStream) :
    (List Value × Option ReadError) × TokenStream :=
  match _ : s.peek with
  | (.error e, s₁) => ((done.reverse, some e), s₁)
  | (.ok none, s₁) => ((done.reverse, none), s₁)
  | (.ok (some _), s₁) =>
    match _ : s₁.expression with
    | (.error e, s₂) => ((done.reverse, some e), s₂)
    | (.ok v, s₂) => expressionsFrom (v :: done) s₂
termination_by s.size
decreasing_by
  exact Nat.lt_of_lt_of_le (size_finish_lt _ _ (by assumption)) (size_peek_le (by assumption))

def expressions (s : TokenStream) : (List Value × Option ReadError) × TokenStream :=
  expressionsFrom [] s

end TokenStream

end SmallLisp
