import SmallLisp.Environment.Heap

/-! The frames of a heap form a tree below the root: outer frames are older, and only the root
has none. So the way outward from a frame is finite, and a search for a name along it ends. -/
namespace SmallLisp

namespace Heap

variable {h : Heap} {f g : FrameId}

structure Forest (h : Heap) : Prop where
  older : ∀ f g, h.outer? f = some g → g < f
  rooted : ∀ f < h.next, h.outer? f = none → f = root

theorem outer?_push (frame : Frame) :
    (h.push frame).outer? f = if f = h.next then frame.outer else h.outer? f := by
  rw [outer?, frames_push]
  split <;> rfl

theorem bindings_push (frame : Frame) :
    (h.push frame).bindings f = if f = h.next then frame.bindings else h.bindings f := by
  by_cases newest : f = h.next
  · rw [bindings, frames_push, if_pos newest, if_pos newest]
  · rw [bindings, frames_push, if_neg newest, if_neg newest]
    rfl

theorem lt_next_of_frame {frame : Frame} (found : h.frames[f]? = some frame) : f < h.next :=
  (Array.getElem?_eq_some_iff.mp found).1

theorem frames_update_same {frame : Frame} (found : h.frames[f]? = some frame)
    (change : Bindings → Bindings) :
    (h.update f change).frames[f]? = some { frame with bindings := change frame.bindings } := by
  simp [update, Array.getElem?_modify, found]

theorem lt_next_of_outer? (found : h.outer? f = some g) : f < h.next := by
  rcases Nat.lt_or_ge f h.next with known | unknown
  · exact known
  · have absent : h.frames[f]? = none := Array.getElem?_eq_none unknown
    rw [outer?, absent] at found
    cases found

theorem forest_initial : initial.Forest where
  older f g found := by
    cases f with
    | zero => cases found
    | succ f => cases found
  rooted f known _ := Nat.lt_one_iff.mp known

theorem Forest.update (forest : h.Forest) (f : FrameId) (change : Bindings → Bindings) :
    (h.update f change).Forest where
  older g g' found := by
    rw [outer?_update] at found
    exact forest.older g g' found
  rooted g known outermost := by
    rw [next_update] at known
    rw [outer?_update] at outermost
    exact forest.rooted g known outermost

theorem Forest.push (forest : h.Forest) (b : Bindings) {outer : FrameId} (known : outer < h.next) :
    (h.push ⟨b, some outer⟩).Forest where
  older f g found := by
    rw [outer?_push] at found
    split at found
    · next newest => cases found; exact newest ▸ known
    · exact forest.older f g found
  rooted f known outermost := by
    rw [outer?_push] at outermost
    split at outermost
    · cases outermost
    · next old =>
      rw [next_push] at known
      exact forest.rooted f (Nat.lt_of_le_of_ne (Nat.le_of_lt_succ known) old) outermost

/-- Outer frames are older, whatever frames have none. -/
def Outward (h : Heap) : Prop := ∀ f g, h.outer? f = some g → g < f

/-- The way outward from a frame, to one that has no outer frame. -/
inductive OuterChain (h : Heap) : FrameId → List FrameId → Prop where
  | last {f : FrameId} : h.outer? f = none → OuterChain h f [f]
  | outward {f g : FrameId} {chain : List FrameId} : h.outer? f = some g →
      OuterChain h g chain → OuterChain h f (f :: chain)

theorem OuterChain.unique {chain chain' : List FrameId} (way : OuterChain h f chain)
    (way' : OuterChain h f chain') : chain = chain' := by
  induction way generalizing chain' with
  | last outermost =>
    cases way' with
    | last => rfl
    | outward found => rw [outermost] at found; cases found
  | outward found _ ih =>
    cases way' with
    | last outermost => rw [outermost] at found; cases found
    | outward found' way' =>
      rw [found] at found'
      cases found'
      rw [ih way']

/-- More steps than the frame's index are enough, since every step leads to an older frame. -/
theorem outerChain_chainFrom (outward : h.Outward) {steps : Nat} (known : f < h.next)
    (enough : f < steps) : OuterChain h f (h.chainFrom steps f) := by
  induction steps generalizing f with
  | zero => exact absurd enough (Nat.not_lt_zero f)
  | succ steps ih =>
    rw [chainFrom, if_pos known]
    cases found : h.outer? f with
    | none => exact .last found
    | some g =>
      have older := outward f g found
      exact .outward found (ih (Nat.lt_trans older known)
        (Nat.lt_of_lt_of_le older (Nat.le_of_lt_succ enough)))

theorem outerChain_chain (outward : h.Outward) (known : f < h.next) : OuterChain h f (h.chain f) :=
  outerChain_chainFrom outward known (Nat.lt_succ_self f)

theorem OuterChain.getLast? {chain : List FrameId} (way : OuterChain h f chain)
    (forest : h.Forest) (known : f < h.next) : chain.getLast? = some root := by
  induction way with
  | last outermost => rw [forest.rooted _ known outermost]; rfl
  | outward found way ih =>
    have ends := ih (Nat.lt_trans (forest.older _ _ found) known)
    rw [List.getLast?_cons, ends]
    rfl

theorem chain_of_outer? (outward : h.Outward) (found : h.outer? f = some g) :
    h.chain f = f :: h.chain g := by
  have known := lt_next_of_outer? found
  have inner := outerChain_chain outward (Nat.lt_trans (outward f g found) known)
  exact (outerChain_chain outward known).unique (.outward found inner)

theorem chain_of_outermost (outward : h.Outward) (known : f < h.next)
    (outermost : h.outer? f = none) : h.chain f = [f] :=
  (outerChain_chain outward known).unique (.last outermost)

/-- A name means what the frame binds it to, else what it means outside. -/
theorem lookup?_of_outer? (outward : h.Outward) (found : h.outer? f = some g) (n : String) :
    h.lookup? f n = ((h.bindings f).get? n).or (h.lookup? g n) := by
  rw [lookup?, chain_of_outer? outward found, List.findSome?_cons]
  cases (h.bindings f).get? n <;> rfl

theorem lookup?_of_outermost (outward : h.Outward) (known : f < h.next)
    (outermost : h.outer? f = none) (n : String) : h.lookup? f n = (h.bindings f).get? n := by
  rw [lookup?, chain_of_outermost outward known outermost, List.findSome?_cons]
  cases (h.bindings f).get? n <;> rfl

/-- A finished search for a name outward from a frame, and the frame that it ends at if some
frame on the way binds the name. -/
inductive Search (h : Heap) (n : String) : FrameId → Option FrameId → Prop where
  | here {f : FrameId} : ((h.bindings f).get? n).isSome → Search h n f (some f)
  | outward {f g : FrameId} {found : Option FrameId} : (h.bindings f).get? n = none →
      h.outer? f = some g → Search h n g found → Search h n f found
  | nowhere {f : FrameId} : (h.bindings f).get? n = none → h.outer? f = none → Search h n f none

theorem Search.unique {n : String} {found found' : Option FrameId} (search : Search h n f found)
    (search' : Search h n f found') : found = found' := by
  induction search with
  | here bound =>
    cases search' with
    | here => rfl
    | outward unbound => rw [unbound] at bound; cases bound
    | nowhere unbound => rw [unbound] at bound; cases bound
  | outward unbound found _ ih =>
    cases search' with
    | here bound => rw [unbound] at bound; cases bound
    | outward _ found' search' =>
      rw [found] at found'
      cases found'
      exact ih search'
    | nowhere _ outermost => rw [found] at outermost; cases outermost
  | nowhere unbound outermost =>
    cases search' with
    | here bound => rw [unbound] at bound; cases bound
    | outward _ found' => rw [outermost] at found'; cases found'
    | nowhere => rfl

theorem OuterChain.search {chain : List FrameId} (way : OuterChain h f chain) (n : String) :
    Search h n f (chain.find? fun g => ((h.bindings g).get? n).isSome) := by
  induction way with
  | @last f outermost =>
    cases bound : (h.bindings f).get? n with
    | none => simpa [bound] using Search.nowhere bound outermost
    | some v => simpa [bound] using Search.here (by rw [bound]; rfl)
  | @outward f g chain found _ ih =>
    cases bound : (h.bindings f).get? n with
    | none => simpa [List.find?_cons, bound] using Search.outward bound found ih
    | some v => simpa [List.find?_cons, bound] using Search.here (by rw [bound]; rfl)

theorem search_find? (outward : h.Outward) (known : f < h.next) (n : String) :
    Search h n f (h.find? f n) := (outerChain_chain outward known).search n

/-- A name is contained where a search for it ends at a frame. -/
theorem contains_iff (outward : h.Outward) (known : f < h.next) (n : String) :
    h.contains f n = true ↔ ∃ g, Search h n f (some g) := by
  rw [contains, Option.isSome_iff_exists]
  have search := search_find? outward known n
  constructor
  · rintro ⟨g, found⟩
    exact ⟨g, found ▸ search⟩
  · rintro ⟨g, search'⟩
    exact ⟨g, search.unique search'⟩

/-- The value of a name is the one that the frame found binds. -/
theorem get_eq_find? (h : Heap) (f : FrameId) (n : String) :
    h.get f n = ((h.find? f n).bind fun g => (h.bindings g).get? n).getD (.str n) := by
  rw [get, lookup?, find?]
  congr 1
  induction h.chain f with
  | nil => rfl
  | cons g rest ih =>
    rw [List.findSome?_cons, List.find?_cons]
    cases bound : (h.bindings g).get? n with
    | none => simpa using ih
    | some v => simp [bound]

/-- There is nothing around the root. -/
theorem get_root (known : root < h.next) (n : String) :
    h.get root n = ((h.bindings root).get? n).getD (.str n) := by
  have alone : h.chain root = [root] := by
    rw [chain, chainFrom, if_pos known]
    cases h.outer? root <;> rfl
  rw [get, lookup?, alone, List.findSome?_singleton]

end Heap

end SmallLisp
