import SmallLisp.Proofs.Reader.FirstExpression
import SmallLisp.Proofs.Value.Alike

/-! Which texts of values are read back. Whatever is read has names that are readable, so a text
in which another name stands is that of no value that is read. -/
namespace SmallLisp

namespace Atom

variable {text : String} {v : Value}

/-- An item that is no quote mark writes a name only if that is readable. -/
theorem Writes.sound (writes : Writes text v) : v.Sound Readable 0 := by
  have made := writes.read
  rw [ofItem] at made
  split at made
  · exact sound_ofDigits made
  · next noInteger =>
    split at made
    · cases made
      exact .float _
    · next noFloat =>
      simp only [constant?] at made
      split at made
      · cases made; exact .bool true
      · split at made
        · cases made; exact .bool false
        · split at made
          · cases made; exact .nil
          · next isTrue isFalse isNil =>
            cases made
            refine .symbol ⟨writes.named, writes.unmarked, noInteger, noFloat, ?_⟩
            simp [constant?, isTrue, isFalse, isNil]

/-- No text is read as the name, which is the quote mark or an integer of too many digits. -/
def Unwritable (name : String) : Prop := name = Pending.quoteMark ∨ ∃ e, ofItem name = .error e

theorem Unwritable.not_writes {name : String} (unwritable : Unwritable name) : ¬ Writes name v := by
  intro writes
  rcases unwritable with mark | ⟨e, long⟩
  · exact writes.unmarked mark
  · cases long.symm.trans writes.read

theorem readable_of_writable {name : String} (named : IsName name)
    (plain : ∀ w, ofItem name = .ok w → w = .symbol name) (writable : ¬ Unwritable name) :
    Readable name := by
  have unmarked : name ≠ Pending.quoteMark := fun mark => writable (.inl mark)
  cases made : ofItem name with
  | error e => exact absurd (.inr ⟨e, made⟩) writable
  | ok w =>
    cases plain w made
    exact (Writes.sound ⟨named, unmarked, made⟩).symbol_name

end Atom

/-- What items and strings make is read back, and so is what is made of that. -/
theorem Expressions.sound {ts : List Token} {vs : List Value} (expressions : Expressions ts vs)
    (named : ∀ t ∈ ts, t.Named) : ∀ v ∈ vs, v.Sound Atom.Readable 0 := by
  induction expressions with
  | nil => nofun
  | @atom t v ts vs means _ ih =>
    have first : v.Sound Atom.Readable 0 := by
      cases means with
      | string raw => exact .str _
      | @item text v unmarked made =>
        have name : Token.Named (.item text) := named _ List.mem_cons_self
        exact Atom.Writes.sound ⟨name, unmarked, made⟩
    exact List.forall_mem_cons.mpr ⟨first, ih fun t member => named t (by simp [member])⟩
  | list _ _ inside later =>
    have items := inside fun t member => named t (by simp [member])
    have rest := later fun t member => named t (by simp [member])
    exact List.forall_mem_cons.mpr ⟨.list items, rest⟩
  | @quoted inner ts items vs _ _ inside later =>
    have inside := inside fun t member => named t (by simp [member])
    have rest := later fun t member => named t (by simp [member])
    have keyword : Atom.Readable "quote" := by decide +kernel
    have quote : (Value.list [.symbol "quote", .list items]).Sound Atom.Readable 0 :=
      .list (by simp [Value.Sound.symbol keyword, Value.Sound.list inside])
    exact List.forall_mem_cons.mpr ⟨quote, rest⟩

theorem readable_of_read {source : String} {v : Value} (made : read source = .ok v) :
    v.Sound Atom.Readable 0 := by
  obtain ⟨first, later, found, expression, -⟩ := readAll_of_read made
  have named : ∀ t ∈ first, t.Named := fun t member =>
    Token.named_of_tokenize found t (List.mem_append_left later member)
  exact expression.sound named v (by simp)

namespace Value

theorem Sound.readable {v : Value} (sound : v.Sound Atom.Readable 0) {depth : Nat}
    (shallow : v.nesting ≤ depth) : v.Readable depth := by
  induction sound generalizing depth with
  | symbol readable => exact .symbol readable
  | str text => exact .str text
  | int fits => exact .int fits
  | float x => exact .float x
  | bool b => exact .bool b
  | nil => exact .nil
  | proc _ _ _ known => exact absurd known (Nat.not_lt_zero _)
  | list _ ih =>
    rw [nesting] at shallow
    cases depth with
    | zero => exact absurd shallow (Nat.not_succ_le_zero _)
    | succ depth =>
      refine .list fun v member => ih v member ?_
      exact Nat.le_trans (nesting_le_nestingOfItems member) (Nat.le_of_succ_le_succ shallow)

end Value

theorem read_text {v : Value} (readable : v.Readable Pending.nestingLimit) :
    read v.text = .ok v := by
  have layout : Layout [v] (v.text.toList ++ []) := .last v (.closed .nil)
  have made := read_layout (by simpa using readable) .nil layout
  simpa using made

namespace Value

variable {v : Value}

/-- Without procedures no frames are needed, and a name can be told by where it occurs. -/
theorem Sound.data {name name' : String → Prop} {frames : Nat} (sound : v.Sound name frames)
    (data : ∀ id params body f, ¬ (Value.proc id params body f).OccursIn v)
    (names : ∀ n, (Value.symbol n).OccursIn v → name' n) : v.Sound name' 0 := by
  induction sound with
  | symbol _ => exact .symbol (names _ .self)
  | str text => exact .str text
  | int fits => exact .int fits
  | float x => exact .float x
  | bool b => exact .bool b
  | nil => exact .nil
  | list _ ih =>
    refine .list fun w member => ih w member (fun id params body f inside => ?_) fun n inside => ?_
    · exact data id params body f (.item member inside)
    · exact names n (.item member inside)
  | proc => exact absurd .self (data _ _ _ _)

theorem tokensOfItems_eq_flatMap (items : List Value) : tokensOfItems items = items.flatMap tokens := by
  induction items with
  | nil => rfl
  | cons v rest ih => rw [tokensOfItems, ih, List.flatMap_cons]

/-- The name of a symbol is an item of the text. -/
theorem item_mem_tokens (sound : v.Sound IsName 0) {name : String}
    (occurs : (Value.symbol name).OccursIn v) : .item name ∈ v.tokens := by
  induction occurs with
  | self => simp [tokens, text, chars]
  | item member _ ih =>
    have inside := ih (sound.items _ member)
    rw [tokens, tokensOfItems_eq_flatMap]
    simp only [List.cons_append, List.mem_cons, List.mem_append, List.mem_flatMap]
    exact .inr (.inl ⟨_, member, inside⟩)
  | body =>
    cases sound with
    | proc _ _ _ known => exact absurd known (Nat.not_lt_zero _)
  | part => cases sound

/-- Every item in the text of a readable value is read as an atom. -/
theorem Readable.writes_of_mem_tokens {depth : Nat} (readable : v.Readable depth) :
    ∀ text, .item text ∈ v.tokens → ∃ w, Atom.Writes text w := by
  refine readable.induct
    (motive := fun _ v => ∀ text, .item text ∈ v.tokens → ∃ w, Atom.Writes text w) ?_ ?_ ?_
  · intro _ text name member
    simp [tokens] at member
  · intro _ v single writes text member
    rw [single] at member
    cases List.mem_singleton.mp member
    exact ⟨v, writes⟩
  · intro _ items each text member
    rw [tokens, tokensOfItems_eq_flatMap] at member
    have atom : Token.item text ∈ items.flatMap tokens := by simpa using member
    obtain ⟨w, inside, found⟩ := List.mem_flatMap.mp atom
    exact each w inside text found

/-- A text with an unwritable name is not that of a value that is read. -/
theorem text_ne_of_read (sound : v.Sound IsName 0) {name : String}
    (occurs : (Value.symbol name).OccursIn v) (unwritable : Atom.Unwritable name) {w : Value}
    (made : read v.text = .ok w) : w.text ≠ v.text := by
  intro same
  have made := readable_of_read made
  have lexed := Token.lex_text (made.imp fun _ readable => readable.named).worded
  rw [same, Token.lex_text sound.worded] at lexed
  have tokens : v.tokens = w.tokens := congrArg Prod.fst lexed
  have readable := made.readable (Nat.le_refl w.nesting)
  obtain ⟨u, writes⟩ := readable.writes_of_mem_tokens name (tokens ▸ item_mem_tokens sound occurs)
  exact unwritable.not_writes writes

end Value

end SmallLisp
