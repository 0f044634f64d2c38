import Mathlib.Data.List.Forall2
import SmallLisp.Evaluation.Error
import SmallLisp.Value.Order

/-! Values of two heaps that are alike: they differ in the frames and the identities of their
procedures only, and there as a matching of the two heaps says. No text, test or comparison of
the language tells such values apart. -/
namespace SmallLisp

/-- Which frames and which identities of procedures of two heaps stand for each other. -/
structure Matching where
  frames : FrameId → FrameId → Prop
  procedures : Nat → Nat → Prop

namespace Matching

instance : LE Matching where
  le μ μ' := (∀ f g, μ.frames f g → μ'.frames f g) ∧ ∀ i j, μ.procedures i j → μ'.procedures i j

theorem le_refl (μ : Matching) : μ ≤ μ := ⟨fun _ _ => id, fun _ _ => id⟩

theorem le_trans {μ μ' μ'' : Matching} (first : μ ≤ μ') (second : μ' ≤ μ'') : μ ≤ μ'' :=
  ⟨fun f g same => second.1 f g (first.1 f g same), fun i j same => second.2 i j (first.2 i j same)⟩

/-- One to one, for frames and for identities. -/
structure OneToOne (μ : Matching) : Prop where
  frames : ∀ f g f' g', μ.frames f g → μ.frames f' g' → (f = f' ↔ g = g')
  procedures : ∀ i j i' j', μ.procedures i j → μ.procedures i' j' → (i = i' ↔ j = j')

end Matching

namespace Value

inductive Alike (μ : Matching) : Value → Value → Prop where
  | symbol (name : String) : Alike μ (.symbol name) (.symbol name)
  | str (text : String) : Alike μ (.str text) (.str text)
  | int (n : Int) : Alike μ (.int n) (.int n)
  | float (x : Binary64) : Alike μ (.float x) (.float x)
  | bool (b : Bool) : Alike μ (.bool b) (.bool b)
  | list {items items' : List Value} : items.length = items'.length →
      (∀ p ∈ items.zip items', Alike μ p.1 p.2) → Alike μ (.list items) (.list items')
  | proc {i j : Nat} {params : List String} {body body' : Value} {f g : FrameId} :
      μ.procedures i j → Alike μ body body' → μ.frames f g →
      Alike μ (.proc i params body f) (.proc j params body' g)
  | nil : Alike μ .nil .nil
  | foreign (thing : Foreign) {parts parts' : List Value} : parts.length = parts'.length →
      (∀ p ∈ parts.zip parts', Alike μ p.1 p.2) →
      Alike μ (.foreign thing parts) (.foreign thing parts')

variable {μ μ' : Matching} {v w : Value} {vs ws : List Value}

/-- Lists of alike values of the same length. -/
abbrev AlikeAll (μ : Matching) : List Value → List Value → Prop := List.Forall₂ (Alike μ)

theorem forall₂_of_zip {R : Value → Value → Prop} (length : vs.length = ws.length)
    (each : ∀ p ∈ vs.zip ws, R p.1 p.2) : List.Forall₂ R vs ws :=
  List.forall₂_iff_zip.mpr ⟨length, fun member => each _ member⟩

theorem Alike.ofItems (each : AlikeAll μ vs ws) : Alike μ (.list vs) (.list ws) :=
  .list each.length_eq fun _ member => List.forall₂_zip each member

theorem Alike.items (alike : Alike μ (.list vs) (.list ws)) : AlikeAll μ vs ws := by
  cases alike with
  | list length each => exact forall₂_of_zip length each

theorem Alike.mono (alike : v.Alike μ w) (larger : μ ≤ μ') : v.Alike μ' w := by
  induction alike with
  | symbol name => exact .symbol name
  | str text => exact .str text
  | int n => exact .int n
  | float x => exact .float x
  | bool b => exact .bool b
  | list length _ ih => exact .list length ih
  | proc identities _ frames ih => exact .proc (larger.2 _ _ identities) ih (larger.1 _ _ frames)
  | nil => exact .nil
  | foreign thing length _ ih => exact .foreign thing length ih

theorem AlikeAll.mono (each : AlikeAll μ vs ws) (larger : μ ≤ μ') :
    AlikeAll μ' vs ws := each.imp fun _ _ alike => alike.mono larger

/-- The value itself, an item of it, or the body of a procedure, at any depth. -/
inductive OccursIn (w : Value) : Value → Prop where
  | self : OccursIn w w
  | item {items : List Value} {v : Value} : v ∈ items → OccursIn w v → OccursIn w (.list items)
  | body {id : Nat} {params : List String} {body : Value} {frame : FrameId} :
      OccursIn w body → OccursIn w (.proc id params body frame)
  | part {thing : Foreign} {parts : List Value} {v : Value} : v ∈ parts → OccursIn w v →
      OccursIn w (.foreign thing parts)

/-- A value is like itself if all its procedures stand for themselves. -/
theorem alike_self (v : Value)
    (each : ∀ id params body frame, (proc id params body frame).OccursIn v →
      μ.procedures id id ∧ μ.frames frame frame) : v.Alike μ v := by
  have items (vs : List Value) (each : ∀ v ∈ vs, v.Alike μ v) : ∀ p ∈ vs.zip vs, p.1.Alike μ p.2 :=
    fun _ member => List.forall₂_zip (List.forall₂_same.mpr each) member
  match v with
  | .list vs =>
    refine .list rfl (items vs fun w member => ?_)
    exact alike_self w fun id params body frame inside =>
      each id params body frame (.item member inside)
  | .foreign thing vs =>
    refine .foreign thing rfl (items vs fun w member => ?_)
    exact alike_self w fun id params body frame inside =>
      each id params body frame (.part member inside)
  | .proc id params body frame =>
    obtain ⟨identity, captured⟩ := each id params body frame .self
    refine .proc identity (alike_self body fun id params body' frame inside => ?_) captured
    exact each id params body' frame (.body inside)
  | .symbol name => exact .symbol name
  | .str text => exact .str text
  | .int n => exact .int n
  | .float x => exact .float x
  | .bool b => exact .bool b
  | .nil => exact .nil

section Texts

theorem charsOfItems_eq_map (items : List Value) : charsOfItems items = items.map chars := by
  induction items with
  | nil => rfl
  | cons v rest ih => rw [charsOfItems, ih, List.map_cons]

theorem map_eq_of_forall₂ {α : Type} {view : Value → α}
    (each : List.Forall₂ (fun v w => view v = view w) vs ws) : vs.map view = ws.map view := by
  induction each with
  | nil => rfl
  | cons first _ ih => rw [List.map_cons, List.map_cons, first, ih]

theorem Alike.chars_eq (alike : v.Alike μ w) : v.chars = w.chars := by
  induction alike with
  | list length _ ih =>
    have same := map_eq_of_forall₂ (forall₂_of_zip length ih)
    simp only [chars, charsOfItems_eq_map, same]
  | proc _ _ _ ih => rw [chars, chars, ih]
  | _ => rfl

theorem Alike.text_eq (alike : v.Alike μ w) : v.text = w.text := by
  rw [text, text, alike.chars_eq]

theorem Alike.displayChars_eq (alike : v.Alike μ w) : v.displayChars = w.displayChars := by
  induction alike with
  | list length each _ => exact (Alike.list length each).chars_eq
  | proc _ _ _ ih => rw [displayChars, displayChars, ih]
  | _ => rfl

theorem Alike.foreign?_eq (alike : v.Alike μ w) : v.foreign? = w.foreign? := by
  have inItems {vs ws : List Value}
      (each : List.Forall₂ (fun v w => foreign? v = foreign? w) vs ws) :
      foreignIn? vs = foreignIn? ws := by
    induction each with
    | nil => rfl
    | cons first _ ih => rw [foreignIn?, foreignIn?, first, ih]
  induction alike with
  | list length _ ih => rw [foreign?, foreign?, inItems (forall₂_of_zip length ih)]
  | proc _ _ _ ih => rw [foreign?, foreign?, ih]
  | _ => rfl

theorem Alike.textDepth_eq (alike : v.Alike μ w) : v.textDepth = w.textDepth := by
  have inItems {vs ws : List Value}
      (each : List.Forall₂ (fun v w => textDepth v = textDepth w) vs ws) :
      textDepthOfItems vs = textDepthOfItems ws := by
    induction each with
    | nil => rfl
    | cons first _ ih => rw [textDepthOfItems, textDepthOfItems, first, ih]
  induction alike with
  | list length _ ih => rw [textDepth, textDepth, inItems (forall₂_of_zip length ih)]
  | proc _ _ _ ih => rw [textDepth, textDepth, ih]
  | _ => rfl

theorem Alike.writable_iff (alike : v.Alike μ w) : v.Writable ↔ w.Writable := by
  rw [Writable, Writable, alike.textDepth_eq]

theorem exists_not_writable_iff (each : AlikeAll μ vs ws) :
    (∃ v ∈ vs, ¬ v.Writable) ↔ ∃ w ∈ ws, ¬ w.Writable := by
  induction each with
  | nil => simp
  | cons first _ ih => rw [List.exists_mem_cons_iff, List.exists_mem_cons_iff, first.writable_iff, ih]

theorem Alike.display?_eq (alike : v.Alike μ w) : v.display? = w.display? := by
  have text : v.display = w.display := congrArg String.ofList alike.displayChars_eq
  rw [display?, display?, proper, proper, alike.foreign?_eq]
  cases w.foreign? with
  | some thing => rfl
  | none =>
    by_cases room : w.Writable
    · simp only [alike.writable_iff.mpr room, room, if_pos, Except.map, text]
    · simp only [mt alike.writable_iff.mp room, room, if_false, Except.map]

theorem Alike.typeName?_eq (alike : v.Alike μ w) : v.typeName? = w.typeName? := by
  cases alike <;> rfl

theorem Alike.notCallable_eq (alike : v.Alike μ w) (name : String) :
    EvalError.notCallable name v = EvalError.notCallable name w := by
  rw [EvalError.notCallable, EvalError.notCallable, alike.typeName?_eq]

end Texts

section Tests

theorem Alike.truthy_eq (alike : v.Alike μ w) : v.truthy = w.truthy := by
  cases alike with
  | @list vs ws length _ =>
    cases vs <;> cases ws <;> first | rfl | simp at length
  | _ => rfl

variable {v' w' : Value}

theorem Alike.order?_eq (alike : v.Alike μ v') (other : w.Alike μ w') :
    v.order? w = v'.order? w' := by
  cases alike <;> cases other <;> rfl

/-- Procedures are the same on one side exactly if they are on the other. -/
theorem Alike.equal_eq (oneToOne : μ.OneToOne) (alike : v.Alike μ v') (other : w.Alike μ w') :
    v.equal w = v'.equal w' := by
  have inItems {as as' bs bs' : List Value}
      (each : List.Forall₂
        (fun a a' => ∀ {b b' : Value}, b.Alike μ b' → a.equal b = a'.equal b') as as')
      (others : AlikeAll μ bs bs') : equalItems as bs = equalItems as' bs' := by
    induction each generalizing bs bs' with
    | nil => cases others <;> rfl
    | cons first _ ih =>
      cases others with
      | nil => rfl
      | cons second rest => rw [equalItems, equalItems, first second, ih rest]
  induction alike generalizing w w' with
  | list length _ ih =>
    cases other with
    | list length' each =>
      rw [equal, equal]
      exact inItems (forall₂_of_zip
        (R := fun a a' => ∀ {b b' : Value}, b.Alike μ b' → a.equal b = a'.equal b') length ih)
        (forall₂_of_zip length' each)
    | _ => rfl
  | proc identities _ _ _ =>
    cases other with
    | proc identities' _ _ =>
      have same := oneToOne.procedures _ _ _ _ identities identities'
      simp only [equal, same]
    | _ => rfl
  | _ => cases other <;> rfl

theorem Alike.equalDepth_eq (oneToOne : μ.OneToOne) (alike : v.Alike μ v') (other : w.Alike μ w') :
    v.equalDepth w = v'.equalDepth w' := by
  have inItems {as as' bs bs' : List Value} (same : AlikeAll μ as as')
      (each : List.Forall₂
        (fun a a' => ∀ {b b' : Value}, b.Alike μ b' → a.equalDepth b = a'.equalDepth b') as as')
      (others : AlikeAll μ bs bs') : equalDepthOfItems as bs = equalDepthOfItems as' bs' := by
    induction each generalizing bs bs' with
    | nil => cases others <;> rfl
    | cons first _ ih =>
      obtain ⟨alike, same⟩ := List.forall₂_cons.mp same
      cases others with
      | nil => rfl
      | cons second rest =>
        rw [equalDepthOfItems, equalDepthOfItems, first second, alike.equal_eq oneToOne second,
          ih same rest]
  induction alike generalizing w w' with
  | list length each ih =>
    cases other with
    | list length' each' =>
      rw [equalDepth, equalDepth, length, length']
      rw [inItems (forall₂_of_zip length each) (forall₂_of_zip
        (R := fun a a' => ∀ {b b' : Value}, b.Alike μ b' → a.equalDepth b = a'.equalDepth b')
        length ih) (forall₂_of_zip length' each')]
    | _ => rfl
  | _ => cases other <;> rfl

theorem Alike.comparable_iff (oneToOne : μ.OneToOne) (alike : v.Alike μ v')
    (other : w.Alike μ w') : v.Comparable w ↔ v'.Comparable w' := by
  rw [Comparable, Comparable, alike.equalDepth_eq oneToOne other]

theorem Alike.equal?_eq (oneToOne : μ.OneToOne) (alike : v.Alike μ v') (other : w.Alike μ w') :
    v.equal? w = v'.equal? w' := by
  simp only [equal?, alike.comparable_iff oneToOne other, alike.equal_eq oneToOne other]

end Tests

end Value

end SmallLisp
