import SmallLisp.Evaluation.Procedure
import SmallLisp.Proofs.Reader.RoundTrip
import SmallLisp.Proofs.Value.Alike

/-! Values as their texts spell them. A procedure is written as the list of a lambda form, and that
is what its text is read as; everything else is read as it is. -/
namespace SmallLisp

theorem mem_of_mem_intercalate {separator : List Char} {texts : List (List Char)} {c : Char}
    (member : c ∈ separator.intercalate texts) : c ∈ separator ∨ ∃ text ∈ texts, c ∈ text := by
  induction texts with
  | nil => cases member
  | cons text rest ih =>
    cases rest with
    | nil =>
      rw [List.intercalate_singleton] at member
      exact .inr ⟨text, by simp, member⟩
    | cons next rest =>
      simp only [List.intercalate_cons_cons, List.mem_append] at member
      rcases member with (here | between) | later
      · exact .inr ⟨text, by simp, here⟩
      · exact .inl between
      · rcases ih later with between | ⟨other, inside, found⟩
        · exact .inl between
        · exact .inr ⟨other, List.mem_cons_of_mem _ inside, found⟩

namespace Value

mutual

/-- The value that the text of a value spells. -/
def spelled : Value → Value
  | .list items => .list (spelledItems items)
  | .proc _ params body _ =>
    .list [.symbol Procedure.lambdaName, .list (params.map .symbol), spelled body]
  | v => v

def spelledItems : List Value → List Value
  | [] => []
  | v :: rest => spelled v :: spelledItems rest

end

theorem spelledItems_eq_map (items : List Value) : spelledItems items = items.map spelled := by
  induction items with
  | nil => rfl
  | cons v rest ih => rw [spelledItems, ih, List.map_cons]

mutual

/-- It has the same text. -/
theorem chars_spelled : (v : Value) → v.spelled.chars = v.chars
  | .list items => by rw [spelled, chars, chars, charsOfItems_spelledItems items]
  | .proc _ params body _ => by
    have names : (params.map Value.symbol).map chars = params.map String.toList := by
      rw [List.map_map]
      rfl
    have parameters : (Value.list (params.map .symbol)).chars =
        '(' :: [' '].intercalate (params.map String.toList) ++ [')'] := by
      simp only [chars, charsOfItems_eq_map, names]
    simp only [spelled]
    simp only [chars, charsOfItems] at parameters ⊢
    rw [parameters, chars_spelled body]
    unfold lambdaChars
    simp [List.intercalate_cons_cons, Procedure.lambdaName]
  | .symbol _ | .str _ | .int _ | .float _ | .bool _ | .nil | .foreign _ _ => rfl

theorem charsOfItems_spelledItems : (items : List Value) →
    charsOfItems (spelledItems items) = charsOfItems items
  | [] => rfl
  | v :: rest => by
    rw [spelledItems, charsOfItems, charsOfItems, chars_spelled v, charsOfItems_spelledItems rest]

end

/-- The values whose text is read back on a line of its own: symbols and parameters have readable
names, no string has a line feed in it, and at most so many lists stand inside each other. -/
inductive Spellable : Nat → Value → Prop where
  | symbol {depth : Nat} {s : String} : Atom.Readable s → Spellable depth (.symbol s)
  | str {depth : Nat} {text : String} : '\n' ∉ text.toList → Spellable depth (.str text)
  | int {depth : Nat} {n : Int} : InRange n → Spellable depth (.int n)
  | float {depth : Nat} (x : Binary64) : Spellable depth (.float x)
  | bool {depth : Nat} (b : Bool) : Spellable depth (.bool b)
  | nil {depth : Nat} : Spellable depth .nil
  | list {depth : Nat} {items : List Value} : (∀ v ∈ items, Spellable depth v) →
      Spellable (depth + 1) (.list items)
  | proc {depth id : Nat} {params : List String} {body : Value} {frame : FrameId} :
      (∀ p ∈ params, Atom.Readable p) → Spellable (depth + 1) body →
      Spellable (depth + 2) (.proc id params body frame)

theorem Spellable.readable {depth : Nat} {v : Value} (spellable : v.Spellable depth) :
    v.spelled.Readable depth := by
  induction spellable with
  | symbol readable => exact .symbol readable
  | str => exact .str _
  | int fits => exact .int fits
  | float x => exact .float x
  | bool b => exact .bool b
  | nil => exact .nil
  | list _ ih =>
    rw [spelled, spelledItems_eq_map]
    exact .list (List.forall_mem_map.mpr ih)
  | @proc depth id params body frame names _ ih =>
    have parameters : ∀ p ∈ params.map Value.symbol, p.Readable depth :=
      List.forall_mem_map.mpr fun p member => .symbol (names p member)
    have keyword : Atom.Readable Procedure.lambdaName := by decide +kernel
    exact .list (List.forall_mem_cons.mpr ⟨.symbol keyword,
      List.forall_mem_cons.mpr ⟨.list parameters, List.forall_mem_cons.mpr ⟨ih, nofun⟩⟩⟩)

theorem textDepthOfItems_le {depth : Nat} {items : List Value}
    (each : ∀ v ∈ items, v.textDepth ≤ depth) : textDepthOfItems items ≤ depth := by
  induction items with
  | nil => exact Nat.zero_le _
  | cons v rest ih =>
    obtain ⟨first, others⟩ := List.forall_mem_cons.mp each
    exact Nat.max_le.mpr ⟨first, ih others⟩

/-- Its text nests no deeper than what is read back. -/
theorem Spellable.textDepth_le {depth : Nat} {v : Value} (spellable : v.Spellable depth) :
    v.textDepth ≤ depth := by
  induction spellable with
  | list _ ih => exact Nat.succ_le_succ (textDepthOfItems_le ih)
  | proc _ _ ih => exact Nat.succ_le_succ ih
  | _ => exact Nat.zero_le _

/-- An item is on one line. -/
theorem lineFeed_not_mem_name {s : String} (named : IsName s) : '\n' ∉ s.toList := by
  intro member
  have solid := (named.2 '\n' member).1
  exact absurd solid (by decide)

theorem lineFeed_not_mem_intercalate {texts : List (List Char)} (each : ∀ text ∈ texts, '\n' ∉ text) :
    '\n' ∉ [' '].intercalate texts := by
  intro member
  rcases mem_of_mem_intercalate member with between | ⟨text, inside, found⟩
  · exact absurd between (by decide)
  · exact each text inside found

theorem lineFeed_not_mem_escape {text : List Char} (within : '\n' ∉ text) :
    '\n' ∉ text.flatMap escapeChar := by
  intro member
  obtain ⟨c, inside, found⟩ := List.mem_flatMap.mp member
  have same : '\n' = c := by
    simp only [escapeChar] at found
    split at found <;> simpa using found
  exact within (same ▸ inside)

/-- No text of theirs goes over the end of a line. -/
theorem Spellable.oneLine {depth : Nat} {v : Value} (spellable : v.Spellable depth) :
    '\n' ∉ v.chars := by
  have item {v : Value} (writes : Atom.Writes v.text v) : '\n' ∉ v.chars := by
    have within := lineFeed_not_mem_name writes.named
    rwa [text, String.toList_ofList] at within
  induction spellable with
  | symbol readable => exact lineFeed_not_mem_name readable.named
  | str within => simp [chars, stringChars, lineFeed_not_mem_escape within]
  | int fits => exact lineFeed_not_mem_name (Atom.writes_int fits).named
  | float x => exact item (Atom.writes_float x)
  | bool b => cases b <;> simp [chars]
  | nil => simp [chars]
  | list _ ih =>
    rw [chars, charsOfItems_eq_map]
    have inside := lineFeed_not_mem_intercalate (List.forall_mem_map.mpr ih)
    simp [inside]
  | proc names _ ih =>
    have inside := lineFeed_not_mem_intercalate (List.forall_mem_map.mpr fun p member =>
      lineFeed_not_mem_name (names p member).named)
    simp only [chars]
    unfold lambdaChars
    simp [inside, ih]

end Value

end SmallLisp
