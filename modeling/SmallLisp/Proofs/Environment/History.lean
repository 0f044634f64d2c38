import Mathlib.Data.Nat.Find
import SmallLisp.Proofs.Environment.Visibility

/-! Forests of frames as a history of changes leaves them. A name stands in its frame from its
first definition since it was last removed, and the names are in the order of these. -/
namespace SmallLisp

/-- A new frame with or without an outer one, or a change of what a frame binds. -/
inductive Change where
  | root
  | child (outer : FrameId)
  | define (f : FrameId) (n : String) (v : Value)
  | undefine (f : FrameId) (n : String)

namespace Heap

variable {h : Heap} {changes : List Change} {c : Change} {f : FrameId} {m n : String}
variable {v : Value} {k l : Nat}

def change (h : Heap) : Change → Heap
  | .root => h.push ⟨[], none⟩
  | .child outer => h.push ⟨[], some outer⟩
  | .define f n v => h.define f n v
  | .undefine f n => h.undefine f n

/-- The frame that the change is about is there. -/
def Allows (h : Heap) : Change → Prop
  | .root => True
  | .child f | .define f _ _ | .undefine f _ => f < h.next

instance (h : Heap) : (c : Change) → Decidable (h.Allows c)
  | .root => inferInstanceAs (Decidable True)
  | .child f | .define f _ _ | .undefine f _ => inferInstanceAs (Decidable (f < h.next))

inductive Grown : List Change → Heap → Prop where
  | none : Grown [] ⟨#[]⟩
  | step {changes : List Change} {h : Heap} {c : Change} : Grown changes h → h.Allows c →
      Grown (changes ++ [c]) (h.change c)

/-- The change at `k` defines the name, which is not removed any more, and what defined it before
was removed. -/
structure FirstDefined (changes : List Change) (f : FrameId) (n : String) (k : Nat) : Prop where
  defined : ∃ v, changes[k]? = some (.define f n v)
  kept : ∀ r > k, changes[r]? ≠ some (.undefine f n)
  first : ∀ l < k, ∀ v, changes[l]? = some (.define f n v) →
    ∃ r, l < r ∧ r < k ∧ changes[r]? = some (.undefine f n)

theorem FirstDefined.lt (first : FirstDefined changes f n k) : k < changes.length := by
  obtain ⟨v, defined⟩ := first.defined
  exact (List.getElem?_eq_some_iff.mp defined).1

theorem FirstDefined.not_lt (first : FirstDefined changes f n k)
    (later : FirstDefined changes f n l) : ¬ k < l := by
  intro before
  obtain ⟨v, defined⟩ := first.defined
  obtain ⟨r, after, _, removed⟩ := later.first k before v defined
  exact first.kept r after removed

theorem FirstDefined.unique (first : FirstDefined changes f n k)
    (first' : FirstDefined changes f n l) : k = l :=
  Nat.le_antisymm (Nat.le_of_not_lt (first'.not_lt first)) (Nat.le_of_not_lt (first.not_lt first'))

/-- Of the definitions after which the name is not removed, the earliest is the first. -/
theorem exists_firstDefined (defined : changes[l]? = some (Change.define f n v))
    (kept : ∀ r > l, changes[r]? ≠ some (Change.undefine f n)) :
    ∃ k, FirstDefined changes f n k := by
  classical
  have bound : ∃ l, (∃ v, changes[l]? = some (Change.define f n v)) ∧
      ∀ r > l, changes[r]? ≠ some (Change.undefine f n) := ⟨l, ⟨v, defined⟩, kept⟩
  obtain ⟨defined, kept⟩ := Nat.find_spec bound
  refine ⟨Nat.find bound, defined, kept, fun l before v earlier => ?_⟩
  by_contra steady
  refine Nat.find_min bound before ⟨⟨v, earlier⟩, fun r after removed => ?_⟩
  rcases Nat.lt_trichotomy r (Nat.find bound) with less | rfl | greater
  · exact steady ⟨r, after, less, removed⟩
  · obtain ⟨w, defined⟩ := defined
    rw [removed] at defined
    cases defined
  · exact kept r greater removed

theorem getElem?_snoc :
    (changes ++ [c])[k]? = if k = changes.length then some c else changes[k]? := by
  rcases Nat.lt_trichotomy k changes.length with less | rfl | greater
  · rw [List.getElem?_append_left less, if_neg (Nat.ne_of_lt less)]
  · simp
  · have old : changes[k]? = none := List.getElem?_eq_none (Nat.le_of_lt greater)
    have new : (changes ++ [c])[k]? = none := by
      apply List.getElem?_eq_none
      rwa [List.length_append, List.length_singleton]
    rw [new, old, if_neg (Nat.ne_of_gt greater)]

theorem getElem?_snoc_of_lt (before : k < changes.length) : (changes ++ [c])[k]? = changes[k]? := by
  rw [getElem?_snoc, if_neg (Nat.ne_of_lt before)]

theorem FirstDefined.snoc (first : FirstDefined changes f n k) (keeps : c ≠ .undefine f n) :
    FirstDefined (changes ++ [c]) f n k where
  defined := by
    rw [getElem?_snoc_of_lt first.lt]
    exact first.defined
  kept r after removed := by
    rw [getElem?_snoc] at removed
    split at removed
    · exact keeps (Option.some.inj removed)
    · exact first.kept r after removed
  first l before v earlier := by
    rw [getElem?_snoc_of_lt (Nat.lt_trans before first.lt)] at earlier
    obtain ⟨r, after, within, removed⟩ := first.first l before v earlier
    refine ⟨r, after, within, ?_⟩
    rw [getElem?_snoc_of_lt (Nat.lt_trans within first.lt)]
    exact removed

theorem FirstDefined.of_snoc (first : FirstDefined (changes ++ [c]) f n k)
    (before : k < changes.length) : FirstDefined changes f n k where
  defined := by
    rw [← getElem?_snoc_of_lt before]
    exact first.defined
  kept r after removed := by
    have present := (List.getElem?_eq_some_iff.mp removed).1
    rw [← getElem?_snoc_of_lt present] at removed
    exact first.kept r after removed
  first l earlier v defined := by
    rw [← getElem?_snoc_of_lt (Nat.lt_trans earlier before)] at defined
    obtain ⟨r, after, within, removed⟩ := first.first l earlier v defined
    rw [getElem?_snoc_of_lt (Nat.lt_trans within before)] at removed
    exact ⟨r, after, within, removed⟩

theorem not_firstDefined_undefine : ¬ FirstDefined (changes ++ [.undefine f n]) f n k := by
  intro first
  have within := first.lt
  rw [List.length_append, List.length_singleton] at within
  rcases Nat.lt_or_eq_of_le (Nat.le_of_lt_succ within) with before | rfl
  · exact first.kept changes.length before (by simp)
  · obtain ⟨v, defined⟩ := first.defined
    simp at defined

/-- A change that neither removes the name nor is its first definition leaves the place. -/
theorem firstDefined_snoc_iff (keeps : c ≠ .undefine f n)
    (bound : (∃ v, c = .define f n v) → ∃ k, FirstDefined changes f n k) :
    FirstDefined (changes ++ [c]) f n k ↔ FirstDefined changes f n k := by
  refine ⟨fun first => first.of_snoc ?_, fun first => first.snoc keeps⟩
  by_contra late
  obtain ⟨v, defined⟩ := first.defined
  rw [getElem?_snoc] at defined
  split at defined
  · obtain ⟨l, old⟩ := bound ⟨v, Option.some.inj defined⟩
    have before := old.lt
    have same := first.unique (old.snoc keeps)
    omega
  · exact late (List.getElem?_eq_some_iff.mp defined).1

theorem firstDefined_define (fresh : ¬ ∃ k, FirstDefined changes f n k) :
    FirstDefined (changes ++ [.define f n v]) f n changes.length where
  defined := ⟨v, by simp⟩
  kept r after removed := by
    have absent : (changes ++ [Change.define f n v])[r]? = none := by
      apply List.getElem?_eq_none
      rwa [List.length_append, List.length_singleton]
    rw [absent] at removed
    cases removed
  first l before w earlier := by
    rw [getElem?_snoc_of_lt before] at earlier
    by_contra steady
    refine fresh (exists_firstDefined earlier fun r after removed => ?_)
    have within := (List.getElem?_eq_some_iff.mp removed).1
    exact steady ⟨r, after, within, by rwa [getElem?_snoc_of_lt within]⟩

/-- The names that the history leaves bound in the frame, in the order of their first
definitions. -/
structure Recorded (changes : List Change) (f : FrameId) (names : List String) : Prop where
  mem : ∀ n, n ∈ names ↔ ∃ k, FirstDefined changes f n k
  ordered : names.Pairwise fun m n => ∀ k l, FirstDefined changes f m k →
    FirstDefined changes f n l → k < l

theorem Recorded.nodup {names : List String} (recorded : Recorded changes f names) :
    names.Nodup := by
  refine recorded.ordered.imp_of_mem fun member _ before => ?_
  rintro rfl
  obtain ⟨k, first⟩ := (recorded.mem _).mp member
  exact Nat.lt_irrefl k (before k k first first)

theorem Recorded.congr {names : List String} {changes' : List Change}
    (recorded : Recorded changes f names)
    (same : ∀ n ∈ names, ∀ k, FirstDefined changes' f n k ↔ FirstDefined changes f n k)
    (mem : ∀ n, n ∈ names ↔ ∃ k, FirstDefined changes' f n k) : Recorded changes' f names := by
  refine ⟨mem, recorded.ordered.imp_of_mem fun old old' before k l first first' => ?_⟩
  exact before k l ((same _ old k).mp first) ((same _ old' l).mp first')

/-- Changes that are not about the names of the frame, and new definitions of bound names. -/
theorem Recorded.keep {names : List String} (recorded : Recorded changes f names)
    (keeps : ∀ n, c ≠ .undefine f n) (bound : ∀ n v, c = .define f n v → n ∈ names) :
    Recorded (changes ++ [c]) f names := by
  have same (n : String) (k : Nat) :
      FirstDefined (changes ++ [c]) f n k ↔ FirstDefined changes f n k := by
    refine firstDefined_snoc_iff (keeps n) ?_
    rintro ⟨v, defines⟩
    exact (recorded.mem n).mp (bound n v defines)
  refine recorded.congr (fun n _ => same n) fun n => ?_
  rw [recorded.mem]
  exact exists_congr fun k => (same n k).symm

theorem Recorded.define {names : List String} (recorded : Recorded changes f names)
    (fresh : n ∉ names) (v : Value) :
    Recorded (changes ++ [.define f n v]) f (names ++ [n]) := by
  have new := firstDefined_define (v := v) (mt (recorded.mem n).mpr fresh)
  have old (m : String) (apart : m ≠ n) (k : Nat) :
      FirstDefined (changes ++ [.define f n v]) f m k ↔ FirstDefined changes f m k := by
    refine firstDefined_snoc_iff nofun ?_
    rintro ⟨w, same⟩
    cases same
    exact absurd rfl apart
  refine ⟨fun m => ?_, List.pairwise_append.mpr ⟨?_, List.pairwise_singleton .., ?_⟩⟩
  · by_cases same : m = n
    · subst same
      exact ⟨fun _ => ⟨_, new⟩, fun _ => by simp⟩
    · simp only [List.mem_append, List.mem_singleton, same, or_false, recorded.mem, old m same]
  · refine recorded.ordered.imp_of_mem fun member member' before k l first first' => ?_
    rw [old _ (ne_of_mem_of_not_mem member fresh)] at first
    rw [old _ (ne_of_mem_of_not_mem member' fresh)] at first'
    exact before k l first first'
  · intro m member m' last k l first first'
    obtain rfl := List.mem_singleton.mp last
    rw [old _ (ne_of_mem_of_not_mem member fresh)] at first
    rw [first'.unique new]
    exact first.lt

theorem Recorded.undefine {names : List String} (recorded : Recorded changes f names)
    (n : String) : Recorded (changes ++ [.undefine f n]) f (names.filter (· ≠ n)) := by
  have old (m : String) (apart : m ≠ n) (k : Nat) :
      FirstDefined (changes ++ [.undefine f n]) f m k ↔ FirstDefined changes f m k := by
    refine firstDefined_snoc_iff ?_ nofun
    rintro same
    cases same
    exact apart rfl
  refine ⟨fun m => ?_, ?_⟩
  · by_cases same : m = n
    · subst same
      simp [not_firstDefined_undefine]
    · simp only [List.mem_filter, recorded.mem, old m same]
      simp [same]
  · refine (recorded.ordered.filter _).imp_of_mem fun member member' before k l first first' => ?_
    have apart := (List.mem_filter.mp member).2
    have apart' := (List.mem_filter.mp member').2
    rw [old _ (by simpa using apart)] at first
    rw [old _ (by simpa using apart')] at first'
    exact before k l first first'

theorem outward_push (outward : h.Outward) {frame : Frame}
    (known : ∀ g, frame.outer = some g → g < h.next) : (h.push frame).Outward := by
  intro f g found
  rw [outer?_push] at found
  split at found
  · next newest => exact newest ▸ known g found
  · exact outward f g found

theorem Grown.outward (grown : Grown changes h) : h.Outward := by
  induction grown with
  | none => nofun
  | @step changes h c _ allowed ih =>
    cases c with
    | root => exact outward_push ih nofun
    | child outer =>
      refine outward_push ih ?_
      rintro g ⟨⟩
      exact allowed
    | define f n v => exact outward_update ih f _
    | undefine f n => exact outward_update ih f _

theorem names_push (outer : Option FrameId) : (h.push ⟨[], outer⟩).names f = h.names f := by
  rw [names, bindings_push, names]
  split
  · next newest =>
    have absent : h.frames[f]? = none := Array.getElem?_eq_none (Nat.le_of_eq newest.symm)
    rw [bindings, absent]
  · rfl

theorem names_update (known : f < h.next) (g : FrameId) (change : Bindings → Bindings) :
    (h.update f change).names g = if g = f then (change (h.bindings f)).names else h.names g := by
  rw [names, bindings_update h known, names]
  split <;> rfl

theorem Grown.recorded (grown : Grown changes h) (f : FrameId) :
    Recorded changes f (h.names f) := by
  induction grown with
  | none =>
    refine ⟨fun n => ⟨fun inside => absurd inside List.not_mem_nil, ?_⟩, .nil⟩
    rintro ⟨k, first⟩
    exact absurd first.lt (Nat.not_lt_zero k)
  | @step changes h c _ allowed ih =>
    cases c with
    | root =>
      rw [change, names_push]
      exact ih.keep (by simp) (by simp)
    | child outer =>
      rw [change, names_push]
      exact ih.keep (by simp) (by simp)
    | define g n v =>
      rw [change, define, names_update allowed, Bindings.names_insert]
      split
      · next same =>
        subst same
        split
        · next bound =>
          refine ih.keep (by simp) ?_
          rintro m w ⟨⟩
          exact bound
        · next fresh => exact ih.define fresh v
      · next apart =>
        refine ih.keep (by simp) ?_
        rintro m w ⟨⟩
        exact absurd rfl apart
    | undefine g n =>
      rw [change, undefine, names_update allowed, Bindings.names_erase]
      split
      · next same =>
        subst same
        exact ih.undefine n
      · next apart =>
        refine ih.keep ?_ (by simp)
        rintro m ⟨⟩
        exact absurd rfl apart

/-- A definition is seen where nothing hides it and changes nothing else; a removal shows what
was hidden and changes nothing else. Searches end at the nearest binding, and the names of a
frame are as the history has them. -/
theorem Grown.visibility (grown : Grown changes h) :
    (∀ i < h.next, ∀ n v j m,
      (m = n ∧ h.Unshadowed n j i → (h.define i n v).get j m = v) ∧
      (¬ (m = n ∧ h.Unshadowed n j i) → (h.define i n v).get j m = h.get j m)) ∧
    (∀ i < h.next, ∀ n, ∀ j < h.next, ∀ m,
      (m = n ∧ h.find? j n = some i →
        (h.undefine i n).get j m = (h.outer? i).elim (.str n) fun g => h.get g n) ∧
      (¬ (m = n ∧ h.find? j n = some i) → (h.undefine i n).get j m = h.get j m)) ∧
    (∀ i n, n ∉ h.names i → h.undefine i n = h) ∧
    (∀ j < h.next, h.OuterChain j (h.chain j) ∧ ∀ n, h.Search n j (h.find? j n) ∧
      (h.contains j n = true ↔ ∃ g, h.Search n j (some g)) ∧
      h.get j n = ((h.find? j n).bind fun g => (h.bindings g).get? n).getD (.str n)) ∧
    ∀ f, (h.names f).Nodup ∧ Recorded changes f (h.names f) := by
  have outward := grown.outward
  refine ⟨?_, ?_, ?_, ?_, ?_⟩
  · intro i known n v j m
    refine ⟨?_, get_define_of_other known v⟩
    rintro ⟨rfl, seen⟩
    exact get_define_of_unshadowed known seen v
  · intro i known n j known' m
    refine ⟨?_, get_undefine_of_other known⟩
    rintro ⟨rfl, nearest⟩
    exact get_undefine_of_search outward known' (nearest ▸ search_find? outward known' m)
  · intro i n free
    exact undefine_eq_self (Bindings.get?_eq_none_iff.mpr free)
  · intro j known
    refine ⟨outerChain_chain outward known, fun n => ?_⟩
    exact ⟨search_find? outward known n, contains_iff outward known n, h.get_eq_find? j n⟩
  · intro f
    exact ⟨(grown.recorded f).nodup, grown.recorded f⟩

/-- An outer definition comes to light when the inner one is removed. -/
theorem Grown.visibility_of_hidden :
    let h := (((((⟨#[]⟩ : Heap).change .root).change (.child 0)).change
      (.define 0 "x" (.int 1))).change (.define 1 "x" (.int 2)))
    Grown [.root, .child 0, .define 0 "x" (.int 1), .define 1 "x" (.int 2)] h ∧
      1 < h.next ∧ h.find? 1 "x" = some 1 ∧ (h.undefine 1 "x").get 1 "x" = .int 1 := by
  intro h
  have grown : Grown ([] ++ [.root] ++ [.child 0] ++ [.define 0 "x" (.int 1)] ++
      [.define 1 "x" (.int 2)]) h :=
    .step (.step (.step (.step .none (by decide)) (by decide)) (by decide)) (by decide)
  have known : 1 < h.next := by decide
  have nearest : h.find? 1 "x" = some 1 := by decide
  obtain ⟨-, removed, -⟩ := grown.visibility
  have shown := (removed 1 known "x" 1 known "x").1 ⟨rfl, nearest⟩
  exact ⟨grown, known, nearest, shown⟩

end Heap

end SmallLisp
