import SmallLisp.Proofs.Environment.Forest
import SmallLisp.Proofs.Value.Alike

/-! Heaps that are alike: frames that stand for each other bind the same names in the same order
to alike values, and lie in frames that stand for each other. Names mean alike values in them. -/
namespace SmallLisp

namespace Bindings

variable {μ μ' : Matching} {b b' : Bindings}

/-- The same names in the same order, with alike values. -/
def Alike (μ : Matching) : Bindings → Bindings → Prop :=
  List.Forall₂ fun d d' => d.1 = d'.1 ∧ d.2.Alike μ d'.2

theorem Alike.mono (alike : Alike μ b b') (larger : μ ≤ μ') : Alike μ' b b' :=
  alike.imp fun _ _ same => ⟨same.1, same.2.mono larger⟩

theorem Alike.names_eq (alike : Alike μ b b') : b.names = b'.names := by
  induction alike with
  | nil => rfl
  | cons first _ ih => exact congrArg₂ List.cons first.1 ih

theorem Alike.get? (alike : Alike μ b b') (n : String) :
    Option.Rel (Value.Alike μ) (b.get? n) (b'.get? n) := by
  induction alike with
  | nil => exact .none
  | @cons d d' _ _ first _ ih =>
    rw [Bindings.get?, Bindings.get?, ← first.1]
    split
    · exact .some first.2
    · exact ih

theorem Alike.insert (alike : Alike μ b b') (n : String) {v w : Value} (value : v.Alike μ w) :
    Alike μ (b.insert n v) (b'.insert n w) := by
  induction alike with
  | nil => exact .cons ⟨rfl, value⟩ .nil
  | @cons d d' _ _ first rest ih =>
    rw [Bindings.insert, Bindings.insert, ← first.1]
    split
    · exact .cons ⟨rfl, value⟩ rest
    · exact .cons ⟨rfl, first.2⟩ ih

theorem Alike.erase (alike : Alike μ b b') (n : String) : Alike μ (b.erase n) (b'.erase n) := by
  induction alike with
  | nil => exact .nil
  | @cons d d' rest rest' first _ ih =>
    have kept : decide (d.1 ≠ n) = decide (d'.1 ≠ n) := by rw [first.1]
    rw [Bindings.erase, Bindings.erase, List.filter_cons, List.filter_cons, ← kept]
    split
    · exact .cons first ih
    · exact ih

theorem Alike.foldl_insert {ds ds' : List (String × Value)} (alike : Alike μ b b')
    (definitions : Alike μ ds ds') :
    Alike μ (ds.foldl (fun b d => b.insert d.1 d.2) b)
      (ds'.foldl (fun b d => b.insert d.1 d.2) b') := by
  induction definitions generalizing b b' with
  | nil => exact alike
  | cons first _ ih =>
    rw [List.foldl_cons, List.foldl_cons, ← first.1]
    exact ih (alike.insert _ first.2)

theorem alike_zip {names : List String} {vs ws : List Value} (values : Value.AlikeAll μ vs ws) :
    Alike μ (names.zip vs) (names.zip ws) := by
  induction values generalizing names with
  | nil => simp only [List.zip_nil_right]; exact .nil
  | cons first _ ih =>
    cases names with
    | nil => exact .nil
    | cons n names => exact .cons ⟨rfl, first⟩ ih

theorem alike_ofDefinitions {ds ds' : List (String × Value)} (definitions : Alike μ ds ds') :
    Alike μ (ofDefinitions ds) (ofDefinitions ds') :=
  Alike.foldl_insert .nil definitions

end Bindings

namespace Heap

variable {μ μ' : Matching} {h h' : Heap} {f g : FrameId}

structure Alike (μ : Matching) (h h' : Heap) : Prop where
  known : ∀ f g, μ.frames f g → f < h.next ∧ g < h'.next
  bindings : ∀ f g, μ.frames f g → (h.bindings f).Alike μ (h'.bindings g)
  outer : ∀ f g, μ.frames f g → Option.Rel μ.frames (h.outer? f) (h'.outer? g)

/-- More may stand for each other than frames of these heaps. -/
theorem Alike.mono (alike : Alike μ h h') (larger : μ ≤ μ')
    (same : ∀ i j, μ'.frames i j → μ.frames i j) : Alike μ' h h' where
  known i j matched := alike.known i j (same i j matched)
  bindings i j matched := (alike.bindings i j (same i j matched)).mono larger
  outer i j matched := by
    have outer := alike.outer i j (same i j matched)
    generalize h.outer? i = outside, h'.outer? j = outside' at outer
    cases outer with
    | none => exact .none
    | some outside => exact .some (larger.1 _ _ outside)

theorem Alike.lookup? (alike : Alike μ h h') (forest : h.Forest) (forest' : h'.Forest)
    (same : μ.frames f g) (n : String) :
    Option.Rel (Value.Alike μ) (h.lookup? f n) (h'.lookup? g n) := by
  -- on the frame: an outer frame is older, so it is dealt with before
  induction f using Nat.strongRecOn generalizing g with
  | ind f ih =>
    have known := alike.known f g same
    have bound := (alike.bindings f g same).get? n
    have outer := alike.outer f g same
    cases found : h.outer? f with
    | none =>
      rw [found] at outer
      cases found' : h'.outer? g with
      | some g' => rw [found'] at outer; cases outer
      | none =>
        rw [lookup?_of_outermost forest.older known.1 found,
          lookup?_of_outermost forest'.older known.2 found']
        exact bound
    | some f' =>
      rw [found] at outer
      cases found' : h'.outer? g with
      | none => rw [found'] at outer; cases outer
      | some g' =>
        rw [found'] at outer
        cases outer with
        | some outside =>
          have further := ih f' (forest.older f f' found) outside
          rw [lookup?_of_outer? forest.older found, lookup?_of_outer? forest'.older found']
          generalize (h.bindings f).get? n = inside, (h'.bindings g).get? n = inside' at bound
          cases bound with
          | some value => exact .some value
          | none => exact further

theorem Alike.get (alike : Alike μ h h') (forest : h.Forest) (forest' : h'.Forest)
    (same : μ.frames f g) (n : String) : (h.get f n).Alike μ (h'.get g n) := by
  have found := alike.lookup? forest forest' same n
  rw [Heap.get, Heap.get]
  generalize h.lookup? f n = meaning, h'.lookup? g n = meaning' at found
  cases found with
  | some value => exact value
  | none => exact .str n

theorem Alike.names_eq (alike : Alike μ h h') (same : μ.frames f g) : h.names f = h'.names g :=
  (alike.bindings f g same).names_eq

/-- The same change made to frames that stand for each other. -/
theorem Alike.update (alike : Alike μ h h') (oneToOne : μ.OneToOne) (same : μ.frames f g)
    {change change' : Bindings → Bindings}
    (keeps : ∀ b b', Bindings.Alike μ b b' → Bindings.Alike μ (change b) (change' b')) :
    Alike μ (h.update f change) (h'.update g change') where
  known i j matched := by
    rw [next_update, next_update]
    exact alike.known i j matched
  bindings i j matched := by
    have known := alike.known f g same
    have both := oneToOne.frames i j f g matched same
    rw [bindings_update h known.1, bindings_update h' known.2]
    by_cases changed : i = f
    · rw [if_pos changed, if_pos (both.mp changed)]
      exact keeps _ _ (alike.bindings f g same)
    · rw [if_neg changed, if_neg fun equal => changed (both.mpr equal)]
      exact alike.bindings i j matched
  outer i j matched := by
    rw [outer?_update, outer?_update]
    exact alike.outer i j matched

/-- A change to a frame that stands for none. -/
theorem Alike.update_stray (alike : Alike μ h h') (stray : ∀ i, ¬ μ.frames i g)
    (known : g < h'.next) (change : Bindings → Bindings) : Alike μ h (h'.update g change) where
  known i j matched := by
    rw [next_update]
    exact alike.known i j matched
  bindings i j matched := by
    have other : j ≠ g := fun same => stray i (same ▸ matched)
    rw [bindings_update h' known, if_neg other]
    exact alike.bindings i j matched
  outer i j matched := by
    rw [outer?_update]
    exact alike.outer i j matched

/-- Frames more on one side, which stand for none. -/
theorem Alike.keeps {h'' : Heap} (alike : Alike μ h h') (grows : h'.next ≤ h''.next)
    (kept : ∀ g < h'.next, h''.frames[g]? = h'.frames[g]?) : Alike μ h h'' where
  known i j matched :=
    have known := alike.known i j matched
    ⟨known.1, Nat.lt_of_lt_of_le known.2 grows⟩
  bindings i j matched := by
    rw [Heap.bindings, Heap.bindings, kept j (alike.known i j matched).2]
    exact alike.bindings i j matched
  outer i j matched := by
    rw [Heap.outer?, Heap.outer?, kept j (alike.known i j matched).2]
    exact alike.outer i j matched

/-- A frame more on one side, which stands for one on the other that stood for none. -/
theorem Alike.pushLeft (alike : Alike μ h h') (larger : μ ≤ μ') {k : FrameId}
    (new : ∀ i j, μ'.frames i j → μ.frames i j ∨ i = h.next ∧ j = k) (known : k < h'.next)
    {b : Bindings} (bindings : b.Alike μ (h'.bindings k)) (same : μ.frames f g)
    (outside : h'.outer? k = some g) : Alike μ' (h.push ⟨b, some f⟩) h' where
  known i j matched := by
    rw [next_push]
    rcases new i j matched with old | ⟨rfl, rfl⟩
    · have known := alike.known i j old
      exact ⟨Nat.lt_succ_of_lt known.1, known.2⟩
    · exact ⟨Nat.lt_succ_self _, known⟩
  bindings i j matched := by
    rw [bindings_push]
    rcases new i j matched with old | ⟨rfl, rfl⟩
    · rw [if_neg (Nat.ne_of_lt (alike.known i j old).1)]
      exact (alike.bindings i j old).mono larger
    · rw [if_pos rfl]
      exact bindings.mono larger
  outer i j matched := by
    rw [outer?_push]
    rcases new i j matched with old | ⟨rfl, rfl⟩
    · rw [if_neg (Nat.ne_of_lt (alike.known i j old).1)]
      have outer := alike.outer i j old
      generalize h.outer? i = outer, h'.outer? j = outer' at outer
      cases outer with
      | none => exact .none
      | some outer => exact .some (larger.1 _ _ outer)
    · rw [if_pos rfl, outside]
      exact .some (larger.1 _ _ same)

theorem push_same {frame : Frame} : ∀ g < h.next, (h.push frame).frames[g]? = h.frames[g]? :=
  fun g known => by rw [frames_push, if_neg (Nat.ne_of_lt known)]

/-- A frame more on both sides, and they stand for each other. -/
theorem Alike.push (alike : Alike μ h h') (larger : μ ≤ μ')
    (new : ∀ i j, μ'.frames i j → μ.frames i j ∨ i = h.next ∧ j = h'.next)
    {b b' : Bindings} (bindings : b.Alike μ b') (same : μ.frames f g) :
    Alike μ' (h.push ⟨b, some f⟩) (h'.push ⟨b', some g⟩) := by
  have more : Alike μ h (h'.push ⟨b', some g⟩) :=
    alike.keeps (by rw [next_push]; exact Nat.le_succ _) push_same
  refine more.pushLeft larger new (by rw [next_push]; exact Nat.lt_succ_self _) ?_ same ?_
  · rw [bindings_push, if_pos rfl]
    exact bindings
  · rw [outer?_push, if_pos rfl]

end Heap

end SmallLisp
