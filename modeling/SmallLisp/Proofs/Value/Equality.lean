import SmallLisp.Proofs.Reader.RoundTrip
import SmallLisp.Proofs.Value.Sound

/-! Equality of values. It is symmetric, and all that differs from itself is what holds
not-a-number. Where there are no floating point numbers and no procedures it is the equality of
texts, as such values are written in tokens that they can be made of again. Two values can fail to be
compared, but only if both nest too deep. -/
namespace SmallLisp

namespace Binary64

theorem equal_comm (x y : Binary64) : x.equal y = y.equal x := by
  simp only [equal]
  cases x.rank? <;> cases y.rank? <;> simp [eq_comm]

theorem rank?_eq_none_iff (x : Binary64) : x.rank? = none ↔ x = .nan := by
  cases x with
  | nan => simp only [rank?]
  | infinite negative => simp only [rank?, reduceCtorEq]
  | finite negative n exact => simp only [rank?, reduceCtorEq]

theorem equal_self_iff (x : Binary64) : x.equal x = true ↔ x ≠ .nan := by
  rw [ne_eq, ← rank?_eq_none_iff, equal]
  cases x.rank? <;> simp

end Binary64

namespace Value

mutual

theorem equal_comm : (a b : Value) → a.equal b = b.equal a
  | .list as, b => by
    cases b with
    | list bs => simpa only [equal] using equalItems_comm as bs
    | _ => rfl
  | .int n, b => by cases b <;> simp [equal, Binary64.equal_comm, eq_comm]
  | .float x, b => by cases b <;> simp [equal, Binary64.equal_comm]
  | .symbol _, b | .str _, b | .bool _, b | .proc .., b | .nil, b | .foreign .., b => by
    cases b <;> simp [equal, eq_comm]

theorem equalItems_comm : (as bs : List Value) → equalItems as bs = equalItems bs as
  | [], bs => by cases bs <;> rfl
  | a :: as, bs => by
    cases bs with
    | nil => rfl
    | cons b bs => rw [equalItems, equalItems, equal_comm a b, equalItems_comm as bs]

end

/-- Only numbers equal values of another kind. -/
theorem kind_eq_of_equal {a b : Value} (same : a.equal b = true)
    (other : ¬ (a.isNumber = true ∧ b.isNumber = true)) : a.kind = b.kind := by
  cases a <;> cases b <;> first | rfl | exact absurd ⟨rfl, rfl⟩ other | cases same

/-- The value itself, or an item of a list in it. What a procedure is made of is not held. -/
inductive HeldIn (w : Value) : Value → Prop where
  | self : HeldIn w w
  | item {items : List Value} {v : Value} : v ∈ items → HeldIn w v → HeldIn w (.list items)

theorem heldIn_list {w : Value} {items : List Value} (other : w ≠ .list items) :
    w.HeldIn (.list items) ↔ ∃ v ∈ items, w.HeldIn v := by
  constructor
  · intro held
    cases held with
    | self => exact absurd rfl other
    | item member held => exact ⟨_, member, held⟩
  · rintro ⟨v, member, held⟩
    exact .item member held

theorem equalItems_self_iff {items : List Value} :
    equalItems items items = true ↔ ∀ v ∈ items, v.equal v = true := by
  induction items with
  | nil => simp [equalItems]
  | cons v rest ih => simp [equalItems, ih]

theorem equal_self_iff (v : Value) : v.equal v = true ↔ ¬ (Value.float .nan).HeldIn v := by
  match v with
  | .list items =>
    have each : ∀ v ∈ items, (v.equal v = true ↔ ¬ (Value.float .nan).HeldIn v) :=
      fun v _ => equal_self_iff v
    have other : Value.float .nan ≠ .list items := nofun
    rw [equal, equalItems_self_iff, heldIn_list other]
    simp only [not_exists, not_and]
    exact forall₂_congr each
  | .float x =>
    have held : (Value.float .nan).HeldIn (.float x) ↔ x = .nan := by
      constructor
      · rintro ⟨⟩; rfl
      · rintro rfl; exact .self
    rw [equal, held, Binary64.equal_self_iff]
  | .symbol _ | .str _ | .int _ | .bool _ | .proc .. | .nil | .foreign .. =>
    have free {w : Value} (held : (Value.float .nan).HeldIn w) :
        w.kind = .float ∨ w.kind = .list := by
      cases held <;> simp [kind]
    constructor
    · rintro - held
      rcases free held with other | other <;> cases other
    · intro
      simp [equal]

mutual

theorem equalDepth_comm : (a b : Value) → a.equalDepth b = b.equalDepth a
  | .list as, b => by
    cases b with
    | list bs =>
      rw [equalDepth, equalDepth, equalDepthOfItems_comm as bs]
      simp only [eq_comm]
    | _ => rfl
  | .symbol _, b | .str _, b | .int _, b | .float _, b | .bool _, b | .proc .., b | .nil, b
  | .foreign .., b => by cases b <;> rfl

theorem equalDepthOfItems_comm : (as bs : List Value) →
    equalDepthOfItems as bs = equalDepthOfItems bs as
  | [], bs => by cases bs <;> rfl
  | a :: as, bs => by
    cases bs with
    | nil => rfl
    | cons b bs =>
      rw [equalDepthOfItems, equalDepthOfItems, equalDepth_comm a b, equal_comm a b,
        equalDepthOfItems_comm as bs]

end

mutual

theorem equalDepth_le_nesting : (a b : Value) → a.equalDepth b ≤ a.nesting
  | .list as, b => by
    cases b with
    | list bs =>
      rw [equalDepth, nesting]
      split
      · exact Nat.succ_le_succ (equalDepthOfItems_le_nesting as bs)
      · exact Nat.zero_le _
    | _ => exact Nat.zero_le _
  | .symbol _, _ | .str _, _ | .int _, _ | .float _, _ | .bool _, _ | .proc .., _ | .nil, _
  | .foreign .., _ => Nat.zero_le _

theorem equalDepthOfItems_le_nesting : (as bs : List Value) →
    equalDepthOfItems as bs ≤ nestingOfItems as
  | [], _ => Nat.zero_le _
  | a :: as, bs => by
    cases bs with
    | nil => exact Nat.zero_le _
    | cons b bs =>
      have first := equalDepth_le_nesting a b
      have later := equalDepthOfItems_le_nesting as bs
      rw [equalDepthOfItems, nestingOfItems]
      split <;> omega

end

mutual

/-- All of a value that is equal to itself is gone through. -/
theorem equalDepth_self : (v : Value) → v.equal v = true → v.equalDepth v = v.nesting
  | .list items, same => by
    rw [equal] at same
    rw [equalDepth, if_pos rfl, nesting, equalDepthOfItems_self items same]
  | .symbol _, _ | .str _, _ | .int _, _ | .float _, _ | .bool _, _ | .proc .., _ | .nil, _
  | .foreign .., _ => rfl

theorem equalDepthOfItems_self : (items : List Value) → equalItems items items = true →
    equalDepthOfItems items items = nestingOfItems items
  | [], _ => rfl
  | v :: rest, same => by
    rw [equalItems, Bool.and_eq_true] at same
    rw [equalDepthOfItems, nestingOfItems, if_pos same.1, equalDepth_self v same.1,
      equalDepthOfItems_self rest same.2]

end

section

variable {a b : Value}

theorem equal?_comm (a b : Value) : a.equal? b = b.equal? a := by
  have room : a.Comparable b ↔ b.Comparable a := by rw [Comparable, Comparable, equalDepth_comm]
  simp only [equal?, room, equal_comm a b]

theorem equal?_eq_ok_iff {r : Bool} : a.equal? b = .ok r ↔ a.Comparable b ∧ a.equal b = r := by
  rw [equal?]
  split <;> simp [*]

theorem comparable_of_nesting_le (shallow : a.nesting ≤ depthLimit) (b : Value) : a.Comparable b :=
  (equalDepth_le_nesting a b).trans shallow

/-- Only values that both nest too deep are not compared. -/
theorem equal?_ok_or_deep (a b : Value) : (∃ r, a.equal? b = .ok r) ∨
    a.equal? b = .error .tooDeep ∧ depthLimit < a.nesting ∧ depthLimit < b.nesting := by
  by_cases room : a.Comparable b
  · exact .inl ⟨_, equal?_eq_ok_iff.mpr ⟨room, rfl⟩⟩
  · have deep : depthLimit < a.equalDepth b := Nat.lt_of_not_le room
    refine .inr ⟨by rw [equal?, if_neg room], deep.trans_le (equalDepth_le_nesting a b), ?_⟩
    rw [equalDepth_comm] at deep
    exact deep.trans_le (equalDepth_le_nesting b a)

theorem equal?_self_iff (v : Value) :
    v.equal? v = .ok true ↔ ¬ (Value.float .nan).HeldIn v ∧ v.nesting ≤ depthLimit := by
  rw [equal?_eq_ok_iff, and_comm, equal_self_iff, Comparable]
  refine and_congr_right fun free => ?_
  rw [equalDepth_self v ((equal_self_iff v).mpr free)]

/-- Nothing is gone into to tell values of different kinds apart. -/
theorem comparable_of_kind_ne (kinds : a.kind ≠ b.kind) : a.Comparable b := by
  cases a with
  | list as =>
    cases b with
    | list bs => exact absurd rfl kinds
    | _ => exact Nat.zero_le _
  | _ => exact Nat.zero_le _

end

/-- No floating point numbers, no procedures, and symbols by readable names. -/
inductive Legible : Value → Prop where
  | symbol {s : String} : Atom.Readable s → Legible (.symbol s)
  | str (text : String) : Legible (.str text)
  | int (n : Int) : Legible (.int n)
  | bool (b : Bool) : Legible (.bool b)
  | nil : Legible .nil
  | list {items : List Value} : (∀ v ∈ items, Legible v) → Legible (.list items)

theorem Legible.worded {v : Value} (legible : v.Legible) : v.Worded := by
  induction legible with
  | symbol readable => exact .symbol readable.named
  | str text => exact .str text
  | int n => exact .int n
  | bool b => exact .bool b
  | nil => exact .nil
  | list _ ih => exact .list ih

theorem equalItems_iff_eq {as bs : List Value}
    (each : ∀ a ∈ as, ∀ b ∈ bs, a.equal b = true ↔ a = b) :
    equalItems as bs = true ↔ as = bs := by
  induction as generalizing bs with
  | nil => cases bs <;> simp [equalItems]
  | cons a as ih =>
    cases bs with
    | nil => simp [equalItems]
    | cons b bs =>
      have first := each a (by simp) b (by simp)
      have later := ih fun v old w new =>
        each v (List.mem_cons_of_mem _ old) w (List.mem_cons_of_mem _ new)
      rw [equalItems, Bool.and_eq_true, first, later, List.cons.injEq]

theorem Legible.equal_iff_eq {a b : Value} (legible : a.Legible) (legible' : b.Legible) :
    a.equal b = true ↔ a = b := by
  induction legible generalizing b with
  | list _ ih =>
    cases legible' with
    | list legible' =>
      rw [equal, equalItems_iff_eq fun v old w new => ih v old (legible' w new), list.injEq]
    | _ => simp [equal]
  | _ => cases legible' <;> simp [equal]

/-- What a single token writes, unless it is a floating point number. -/
def ofToken : Token → Value
  | .string raw => .str (Atom.unescape raw)
  | .item text =>
    match Atom.integer? text.toList with
    | some (negative, digits) => .int (Binary64.signed negative (Text.digitsValue digits))
    | none => (Atom.constant? text).getD (.symbol text)
  | _ => .nil

/-- Induction over legible values as their tokens tell them apart. -/
theorem Legible.induct {motive : Value → Prop}
    (single : ∀ v t, v.tokens = [t] → t ≠ .lparen → ofToken t = v → motive v)
    (list : ∀ items, (∀ v ∈ items, Legible v) → (∀ v ∈ items, motive v) → motive (.list items))
    {v : Value} (legible : v.Legible) : motive v := by
  induction legible with
  | @symbol s readable =>
    refine single _ _ rfl (by simp) ?_
    simp [Value.text, chars, ofToken, readable.noInteger, readable.noConstant]
  | str text => exact single _ _ rfl (by simp) (congrArg Value.str (Atom.unescape_stringChars text))
  | int n =>
    refine single _ _ rfl (by simp) ?_
    have same : Binary64.signed (n < 0) n.natAbs = n := by
      simp only [Binary64.signed, decide_eq_true_eq]
      split <;> omega
    rw [Value.text, chars, String.ofList_toList, ofToken, Atom.integer?_toString]
    simp only [Text.digitsValue_toDigits, same]
  | bool b => cases b <;> exact single _ _ rfl (by simp) rfl
  | nil => exact single _ _ rfl (by simp) rfl
  | list legible ih => exact list _ legible ih

theorem Legible.single_or_list {v : Value} (legible : v.Legible) :
    (∃ t, v.tokens = [t] ∧ t ≠ .lparen ∧ ofToken t = v) ∨
      ∃ items, v = .list items ∧ ∀ w ∈ items, Legible w := by
  refine Legible.induct (motive := fun v => (∃ t, v.tokens = [t] ∧ t ≠ .lparen ∧ ofToken t = v) ∨
    ∃ items, v = .list items ∧ ∀ w ∈ items, Legible w) ?_ ?_ legible
  · intro v t one plain made
    exact .inl ⟨t, one, plain, made⟩
  · intro items legible _
    exact .inr ⟨items, rfl, legible⟩

/-- Of a row of tokens that begins with the value's, no other value and no other rest can be
made. -/
def Separate (v : Value) : Prop :=
  ∀ w rest rest', Legible w → v.tokens ++ rest = w.tokens ++ rest' → v = w ∧ rest = rest'

theorem tokens_ne_rparen (v : Value) (rest rest' : List Token) :
    v.tokens ++ rest ≠ .rparen :: rest' := by
  cases v <;> simp [tokens]

theorem separate_items {as bs : List Value} {rest rest' : List Token}
    (each : ∀ v ∈ as, Separate v) (legible : ∀ v ∈ bs, Legible v)
    (same : tokensOfItems as ++ .rparen :: rest = tokensOfItems bs ++ .rparen :: rest') :
    as = bs ∧ rest = rest' := by
  induction as generalizing bs with
  | nil =>
    cases bs with
    | nil => exact ⟨rfl, (List.cons.inj same).2⟩
    | cons b bs =>
      rw [tokensOfItems, tokensOfItems, List.append_assoc] at same
      exact absurd same.symm (tokens_ne_rparen b _ _)
  | cons a as ih =>
    cases bs with
    | nil =>
      rw [tokensOfItems, tokensOfItems, List.append_assoc] at same
      exact absurd same (tokens_ne_rparen a _ _)
    | cons b bs =>
      rw [tokensOfItems, tokensOfItems, List.append_assoc, List.append_assoc] at same
      obtain ⟨rfl, more⟩ := each a (by simp) b _ _ (legible b (by simp)) same
      obtain ⟨rfl, after⟩ := ih (fun v member => each v (by simp [member]))
        (fun v member => legible v (by simp [member])) more
      exact ⟨rfl, after⟩

theorem Legible.separate {v : Value} (legible : v.Legible) : v.Separate := by
  refine Legible.induct (motive := Separate) ?_ ?_ legible
  · intro v t one plain made w rest rest' legible same
    rcases legible.single_or_list with ⟨t', one', -, made'⟩ | ⟨items, rfl, -⟩
    · rw [one, one'] at same
      obtain ⟨rfl, after⟩ := List.cons.inj same
      exact ⟨made.symm.trans made', after⟩
    · rw [one] at same
      exact absurd (List.cons.inj same).1 plain
  · intro items _ each w rest rest' legible same
    rcases legible.single_or_list with ⟨t', one', plain', -⟩ | ⟨items', rfl, legible'⟩
    · rw [one'] at same
      exact absurd (List.cons.inj same).1.symm plain'
    · simp only [tokens, List.cons_append, List.append_assoc, List.cons.injEq, true_and] at same
      obtain ⟨rfl, after⟩ := separate_items each legible' same
      exact ⟨rfl, after⟩

theorem Legible.text_inj {a b : Value} (legible : a.Legible) (legible' : b.Legible) :
    a.text = b.text ↔ a = b := by
  constructor
  · intro same
    have lexed := Token.lex_text legible.worded
    rw [same, Token.lex_text legible'.worded] at lexed
    have tokens : a.tokens ++ [] = b.tokens ++ [] := by rw [(Prod.mk.inj lexed).1]
    exact (legible.separate b [] [] legible' tokens).1
  · rintro rfl
    rfl

theorem textDepthOfItems_eq {items : List Value} (each : ∀ v ∈ items, v.textDepth = v.nesting) :
    textDepthOfItems items = nestingOfItems items := by
  induction items with
  | nil => rfl
  | cons v rest ih =>
    obtain ⟨first, others⟩ := List.forall_mem_cons.mp each
    rw [textDepthOfItems, nestingOfItems, first, ih others]

/-- There are no procedures in it, so that all that nests are lists. -/
theorem Legible.textDepth_eq {v : Value} (legible : v.Legible) : v.textDepth = v.nesting := by
  induction legible with
  | list _ ih => rw [textDepth, nesting, textDepthOfItems_eq ih]
  | _ => rfl

theorem Legible.foreign?_eq_none {v : Value} (legible : v.Legible) : v.foreign? = none := by
  induction legible with
  | list _ ih => rw [foreign?]; exact foreignIn?_eq_none ih
  | _ => rfl

theorem Legible.text?_eq {v : Value} (legible : v.Legible) (shallow : v.nesting ≤ depthLimit) :
    v.text? = .ok v.text := by
  have room : v.Writable := legible.textDepth_eq.trans_le shallow
  rw [text?, proper, legible.foreign?_eq_none]
  simp only [if_pos room]
  rfl

/-- Equality is symmetric, also where it fails, and it fails only on two values that both nest too
deep. Only what holds not-a-number or nests too deep is not found equal to itself, and only numbers
equal values of another kind. Legible values that do not nest too deep are equal just when their
texts are the same, which those of different ones never are. -/
theorem equal_is_lawful :
    (∀ a b : Value, a.equal? b = b.equal? a) ∧
      (∀ a b : Value, (∃ r, a.equal? b = .ok r) ∨
        a.equal? b = .error .tooDeep ∧ depthLimit < a.nesting ∧ depthLimit < b.nesting) ∧
      (∀ a : Value,
        a.equal? a = .ok true ↔ ¬ (Value.float .nan).HeldIn a ∧ a.nesting ≤ depthLimit) ∧
      (∀ a b : Value, a.kind ≠ b.kind → ¬ (a.isNumber = true ∧ b.isNumber = true) →
        a.equal? b = .ok false) ∧
      (∀ a b : Value, a.Legible → b.Legible → a.nesting ≤ depthLimit → b.nesting ≤ depthLimit →
        a.text? = .ok a.text ∧ (a.equal? b = .ok true ↔ a.text = b.text) ∧
          (a.text = b.text → a = b)) ∧
      Equivalence fun a b : {v : Value // v.Legible ∧ v.nesting ≤ depthLimit} =>
        a.1.equal? b.1 = .ok true := by
  have told {a b : Value} (legible : a.Legible) (legible' : b.Legible)
      (shallow : a.nesting ≤ depthLimit) : a.equal? b = .ok true ↔ a = b := by
    rw [equal?_eq_ok_iff, legible.equal_iff_eq legible']
    exact and_iff_right (comparable_of_nesting_le shallow b)
  refine ⟨equal?_comm, equal?_ok_or_deep, equal?_self_iff, ?_, ?_, ?_⟩
  · intro a b kinds other
    refine equal?_eq_ok_iff.mpr ⟨comparable_of_kind_ne kinds, ?_⟩
    rw [Bool.eq_false_iff]
    exact fun same => kinds (kind_eq_of_equal same other)
  · intro a b legible legible' shallow _
    have spelled := legible.text_inj legible'
    exact ⟨legible.text?_eq shallow, (told legible legible' shallow).trans spelled.symm, spelled.mp⟩
  · have same (a b : {v : Value // v.Legible ∧ v.nesting ≤ depthLimit}) :
        a.1.equal? b.1 = .ok true ↔ a = b :=
      (told a.2.1 b.2.1 a.2.2).trans Subtype.ext_iff.symm
    simp only [same]
    exact ⟨fun _ => rfl, fun h => h.symm, fun h h' => h.trans h'⟩

theorem equal_is_lawful_one_and_true : (bool true).kind ≠ (int 1).kind ∧
    ¬ ((bool true).isNumber = true ∧ (int 1).isNumber = true) ∧
    (bool true).equal? (int 1) = .ok false ∧ (list [str "a b"]).Legible ∧
    (list [symbol "a", symbol "b"]).Legible ∧ (list [str "a b"]).nesting ≤ depthLimit ∧
    (list [symbol "a", symbol "b"]).nesting ≤ depthLimit ∧
    ((list [str "a b"]).equal? (list [symbol "a", symbol "b"]) = .ok true ↔
      (list [str "a b"]).text = (list [symbol "a", symbol "b"]).text) := by
  obtain ⟨-, -, -, kinds, spelled, -⟩ := equal_is_lawful
  have differ : (bool true).kind ≠ (int 1).kind := by decide
  have other : ¬ ((bool true).isNumber = true ∧ (int 1).isNumber = true) := by decide
  have one : (list [str "a b"]).Legible := .list (by simpa using .str "a b")
  have two : (list [symbol "a", symbol "b"]).Legible := by
    have a : (symbol "a").Legible := .symbol (by decide)
    have b : (symbol "b").Legible := .symbol (by decide)
    exact .list (by simpa using ⟨a, b⟩)
  have shallow : (list [str "a b"]).nesting ≤ depthLimit := by decide
  have shallow' : (list [symbol "a", symbol "b"]).nesting ≤ depthLimit := by decide
  exact ⟨differ, other, kinds _ _ differ other, one, two, shallow, shallow',
    (spelled _ _ one two shallow shallow').2.1⟩

/-- A list that nests too deep is not found equal to itself, though there are no numbers in it. -/
theorem equal_self_fails_on_nested :
    ¬ (float .nan).HeldIn (nested depthLimit) ∧
      (nested depthLimit).equal? (nested depthLimit) = .error .tooDeep := by
  have free (n : Nat) : ¬ (float .nan).HeldIn (nested n) := by
    induction n with
    | zero => rintro ⟨⟩; contradiction
    | succ n ih =>
      rintro (_ | ⟨member, held⟩)
      cases List.mem_singleton.mp member
      exact ih held
  have depth := equalDepth_self _ ((equal_self_iff _).mpr (free depthLimit))
  rw [nesting_nested] at depth
  have deep : ¬ (nested depthLimit).Comparable (nested depthLimit) := by
    rw [Comparable, depth]
    exact Nat.not_succ_le_self _
  exact ⟨free depthLimit, by rw [equal?, if_neg deep]⟩

end Value

end SmallLisp
