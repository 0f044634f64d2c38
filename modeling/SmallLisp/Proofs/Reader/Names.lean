import SmallLisp.Proofs.Value.Sound
import SmallLisp.Reader.Read

/-! What is read is sound, whatever the text is. The scanner makes names of nothing but the
characters that items are made of, and the atoms are integers of 64 bits or no integers. -/
namespace SmallLisp

/-- What a symbol or a key can be called: nothing empty, and nothing with a character that
ends a token. -/
def IsName (s : String) : Prop :=
  s.toList ≠ [] ∧ ∀ c ∈ s.toList, Text.isBlank c = false ∧ c ∉ ['(', ')', '"', ';']

/-- What a name quotes is a name. -/
theorem isName_of_quotedName? (s q : String) (named : IsName s) (quoted : quotedName? s = some q) :
    IsName q := by
  simp only [quotedName?] at quoted
  split at quoted
  · next c rest same =>
    cases quoted
    refine ⟨by simp, fun d member => named.2 d ?_⟩
    rw [same]
    exact List.mem_cons_of_mem _ (by simpa using member)
  · cases quoted

namespace Token

theorem isItemChar_iff (c : Char) :
    isItemChar c = true ↔ Text.isBlank c = false ∧ c ∉ ['(', ')', '"', ';'] := by
  simp [isItemChar, and_assoc]

theorem isName_iff (s : String) : s.toList ≠ [] ∧ s.toList.all isItemChar = true ↔ IsName s := by
  simp only [IsName, List.all_eq_true, isItemChar_iff]

theorem isName_of_all {s : String} (nonempty : s.toList ≠ [])
    (all : s.toList.all isItemChar = true) : IsName s := (isName_iff s).mp ⟨nonempty, all⟩

instance (s : String) : Decidable (IsName s) := decidable_of_iff _ (isName_iff s)

mutual

/-- A gap reaches as far as it can. -/
theorem head_skipGap : (text : List Char) → ∀ c rest, skipGap text = c :: rest →
    Text.isBlank c = false ∧ c ≠ ';'
  | [], _, _, left => by cases left
  | d :: text, c, rest, left => by
    simp only [skipGap] at left
    split at left
    · exact head_skipGap text c rest left
    · next solid =>
      split at left
      · exact head_skipComment text c rest left
      · next code =>
        cases left
        exact ⟨eq_false_of_ne_true solid, code⟩

theorem head_skipComment : (text : List Char) → ∀ c rest, skipComment text = c :: rest →
    Text.isBlank c = false ∧ c ≠ ';'
  | [], _, _, left => by cases left
  | d :: text, c, rest, left => by
    simp only [skipComment] at left
    split at left
    · exact head_skipGap text c rest left
    · exact head_skipComment text c rest left

end

/-- The items that a scanner finds are names. -/
def Named : Token → Prop
  | .item text => IsName text
  | _ => True

theorem named_of_scan {text rest : List Char} {t : Token} (found : scan text = .token t rest) :
    t.Named := by
  simp only [scan] at found
  split at found
  · cases found
  · cases found; trivial
  · cases found; trivial
  · split at found
    · cases found; trivial
    · cases found
  · next c after noOpen noClose noMark left =>
    cases found
    obtain ⟨solid, code⟩ := head_skipGap text c after left
    have first : isItemChar c = true := by
      rw [isItemChar_iff]
      refine ⟨solid, ?_⟩
      simp only [List.mem_cons, List.not_mem_nil, or_false, not_or]
      exact ⟨noOpen, noClose, noMark, code⟩
    refine ⟨by simp, fun d member => (isItemChar_iff d).mp ?_⟩
    rcases List.mem_cons.mp (by simpa using member) with rfl | later
    · exact first
    · exact List.all_eq_true.mp (List.all_takeWhile) d later

theorem named_of_lex (text : List Char) : ∀ t ∈ (lex text).1, t.Named := by
  fun_induction lex text with
  | case1 => nofun
  | case2 => nofun
  | case3 text t rest found tokens fault same ih =>
    intro t' member
    rcases List.mem_cons.mp member with rfl | later
    · exact named_of_scan found
    · exact ih t' (by rw [same]; exact later)

theorem named_of_tokenize {text : String} {tokens : List Token}
    (scanned : tokenize text = .ok tokens) : ∀ t ∈ tokens, t.Named := by
  simp only [tokenize] at scanned
  split at scanned
  · cases scanned
  · next same =>
    split at scanned
    · cases scanned
    · split at scanned
      · cases scanned
      · cases scanned
        have each := named_of_lex text.toList
        rw [same] at each
        exact each

end Token

namespace Atom

variable {frames : Nat} {v : Value}

theorem sound_ofDigits {name : String → Prop} {negative : Bool} {digits : List Char}
    (made : ofDigits negative digits = .ok v) : v.Sound name frames := by
  simp only [ofDigits] at made
  split at made
  · split at made
    · cases made
    · cases made
      split
      · next fits => exact .int fits
      · exact .float _
  · cases made
    exact .float _

theorem sound_ofItem {text : String} (named : IsName text) (made : ofItem text = .ok v) :
    v.Sound IsName frames := by
  simp only [ofItem] at made
  split at made
  · exact sound_ofDigits made
  · split at made
    · cases made
      exact .float _
    · cases made
      simp only [constant?]
      split
      · exact .bool true
      · split
        · exact .bool false
        · split
          · exact .nil
          · exact .symbol named

end Atom

namespace Pending

variable {frames : Nat}

/-- What has been read so far is sound. -/
def Sound (frames : Nat) (p : Pending) : Prop :=
  ∀ l ∈ p.lists, ∀ v ∈ l.items, v.Sound IsName frames

def Step.Sound (frames : Nat) : Step → Prop
  | .more p => p.Sound frames
  | .done v => v.Sound IsName frames

theorem sound_close {l : OpenList} (each : ∀ v ∈ l.items, v.Sound IsName frames) :
    l.close.Sound IsName frames := by
  have list : (Value.list l.items.reverse).Sound IsName frames := .list (by simpa using each)
  have named : IsName "quote" := Token.isName_of_all (by decide) (by decide)
  simp only [OpenList.close]
  split
  · exact .list (by simpa [list] using Value.Sound.symbol named)
  · exact list

theorem sound_add {v : Value} (value : v.Sound IsName frames) {lists : List OpenList}
    (sound : ∀ l ∈ lists, ∀ w ∈ l.items, w.Sound IsName frames) :
    (add v lists).Sound frames := by
  cases lists with
  | nil => exact value
  | cons l outer =>
    intro l' member w item
    rcases List.mem_cons.mp member with rfl | further
    · rcases List.mem_cons.mp item with rfl | earlier
      · exact value
      · exact sound l (by simp) w earlier
    · exact sound l' (by simp [further]) w item

theorem sound_openList {p : Pending} (sound : p.Sound frames) {quoted : Bool} {step : Step}
    (made : p.openList quoted = .ok step) : step.Sound frames := by
  simp only [openList] at made
  split at made
  · cases made
    intro l member
    rcases List.mem_cons.mp member with rfl | further
    · nofun
    · exact sound l further
  · cases made

theorem sound_feed {p : Pending} (sound : p.Sound frames) {t : Token} (named : t.Named)
    {step : Step} (made : p.feed t = .ok step) : step.Sound frames := by
  unfold feed at made
  split at made
  · split at made
    · exact sound_openList sound made
    · cases made
  · split at made
    · exact sound_openList sound made
    · split at made
      · cases made
      · next l outer open' =>
        cases made
        rw [Sound, open'] at sound
        exact sound_add (sound_close (sound l (by simp)))
          fun l' further => sound l' (by simp [further])
    · cases made
      exact sound_add (.str _) sound
    · next text =>
      split at made
      · cases made
        exact sound
      · cases item : Atom.ofItem text with
        | error e => rw [item] at made; cases made
        | ok v =>
          rw [item] at made
          cases made
          exact sound_add (Atom.sound_ofItem named item) sound

end Pending

namespace TokenStream

variable {frames : Nat} {s s' : TokenStream} {t : Token}

/-- A stream whose items are names, where they have been scanned. -/
structure Named (s : TokenStream) : Prop where
  ahead : ∀ t ∈ s.ahead, t.Named
  source : ∀ tokens, s.source = .tokens tokens → ∀ t ∈ tokens, t.Named

theorem named_advance (named : s.Named) (taken : s.advance = (.ok (some t), s')) :
    t.Named ∧ s'.Named := by
  unfold advance at taken
  split at taken
  · next seen =>
    cases taken
    exact ⟨named.ahead t seen, nofun, named.source⟩
  · unfold TokenSource.next at taken
    split at taken
    next next' =>
    split at next'
    · split at next'
      · cases next'; cases taken
      · cases next'; cases taken
      · next found =>
        cases next'
        cases taken
        exact ⟨Token.named_of_scan found, nofun, nofun⟩
    · cases next'; cases taken
    · next rest same =>
      cases next'
      cases taken
      have each := named.source _ same
      refine ⟨each t (by simp), nofun, fun tokens same' => ?_⟩
      cases same'
      exact fun t' later => each t' (by simp [later])

theorem sound_finish {p : Pending} (sound : p.Sound frames) (named : s.Named) {v : Value}
    (made : s.finish p = (.ok v, s')) : v.Sound IsName frames := by
  fun_induction finish p s with
  | case1 | case2 | case3 => cases made
  | case4 p s t s₁ taken w fed =>
    cases made
    exact Pending.sound_feed sound (named_advance named taken).1 fed
  | case5 p s t s₁ taken p₁ fed ih =>
    obtain ⟨named', rest⟩ := named_advance named taken
    exact ih (Pending.sound_feed sound named' fed) rest made

end TokenStream

/-- The first expression of any text, if there is one. -/
theorem sound_read {text : String} {v : Value} (made : read text = .ok v) (frames : Nat) :
    v.Sound IsName frames := by
  simp only [read] at made
  cases scanned : Token.tokenize text with
  | error e => rw [scanned] at made; cases made
  | ok tokens =>
    rw [scanned] at made
    change ((TokenStream.ofTokens tokens).finish .start).1 = .ok v at made
    have stream : (TokenStream.ofTokens tokens).Named := by
      refine ⟨nofun, fun ts same => ?_⟩
      cases same
      exact Token.named_of_tokenize scanned
    have empty : Pending.start.Sound frames := nofun
    exact TokenStream.sound_finish empty stream (Prod.ext made rfl)

end SmallLisp
