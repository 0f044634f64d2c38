import SmallLisp.Proofs.Environment.Forest
import SmallLisp.Proofs.Environment.Sound

/-! What is visible where. A definition is seen by the frames whose way outward comes to it
before any other binding of the name, and its removal shows those frames what it hid. The names
of a frame are told from the history of changes alone. -/
namespace SmallLisp

namespace Bindings

theorem get?_eq_none_iff {n : String} {b : Bindings} : b.get? n = none ↔ n ∉ b.names := by
  constructor
  · intro free member
    induction b with
    | nil => cases member
    | cons d rest ih =>
      rw [get?] at free
      split at free
      · cases free
      · next apart =>
        rcases List.mem_cons.mp member with same | later
        · exact apart same.symm
        · exact ih free later
  · exact get?_eq_none

theorem names_insert (n : String) (v : Value) (b : Bindings) :
    (b.insert n v).names = if n ∈ b.names then b.names else b.names ++ [n] := by
  induction b with
  | nil => rfl
  | cons d rest ih =>
    obtain ⟨m, w⟩ := d
    rw [insert]
    split
    · next same => simp [names, same]
    · next apart =>
      have other : n ≠ m := Ne.symm apart
      simp only [names, List.map_cons, List.mem_cons, other, false_or] at ih ⊢
      rw [ih]
      by_cases bound : n ∈ rest.map (·.1) <;> simp [bound]

theorem names_erase (n : String) (b : Bindings) :
    (b.erase n).names = b.names.filter (· ≠ n) := by
  rw [erase, names, names, List.filter_map]
  rfl

theorem erase_eq_self {n : String} {b : Bindings} (free : n ∉ b.names) : b.erase n = b := by
  rw [erase, List.filter_eq_self]
  intro d member
  have apart : d.1 ≠ n := fun same => free (same ▸ List.mem_map_of_mem member)
  simpa using apart

end Bindings

namespace Heap

variable {h : Heap} {f g i j : FrameId} {m n : String} {v : Value}

/-- The way outward from `j` comes to `i`, and no frame before binds the name. -/
def Unshadowed (h : Heap) (n : String) (j i : FrameId) : Prop :=
  ∃ nearer further, h.chain j = nearer ++ i :: further ∧
    ∀ k ∈ nearer, (h.bindings k).get? n = none

theorem chain_update (h : Heap) (f g : FrameId) (change : Bindings → Bindings) :
    (h.update f change).chain g = h.chain g := by
  have steps (fuel : Nat) (g : FrameId) :
      (h.update f change).chainFrom fuel g = h.chainFrom fuel g := by
    induction fuel generalizing g with
    | zero => rfl
    | succ fuel ih =>
      rw [chainFrom, chainFrom, next_update, outer?_update]
      cases h.outer? g with
      | none => rfl
      | some outer => simp only [ih outer]
  exact steps (g + 1) g

theorem outward_update (outward : h.Outward) (f : FrameId) (change : Bindings → Bindings) :
    (h.update f change).Outward := by
  intro g g' found
  rw [outer?_update] at found
  exact outward g g' found

theorem get?_define (known : i < h.next) (k : FrameId) (n m : String) (v : Value) :
    ((h.define i n v).bindings k).get? m =
      if k = i ∧ n = m then some v else (h.bindings k).get? m := by
  rw [define, bindings_update h known]
  by_cases same : k = i
  · rw [if_pos same, Bindings.get?_insert, same]
    simp
  · rw [if_neg same]
    simp [same]

theorem get?_undefine (known : i < h.next) (k : FrameId) (n m : String) :
    ((h.undefine i n).bindings k).get? m =
      if k = i ∧ n = m then none else (h.bindings k).get? m := by
  rw [undefine, bindings_update h known]
  by_cases same : k = i
  · rw [if_pos same, Bindings.get?_erase, same]
    simp
  · rw [if_neg same]
    simp [same]

theorem get_define_of_unshadowed (known : i < h.next) (seen : h.Unshadowed n j i) (v : Value) :
    (h.define i n v).get j n = v := by
  obtain ⟨nearer, further, way, free⟩ := seen
  have found : (nearer ++ i :: further).findSome?
      (fun k => ((h.define i n v).bindings k).get? n) = some v := by
    clear way
    induction nearer with
    | nil => simp [get?_define known]
    | cons k rest ih =>
      have later := ih fun k member => free k (by simp [member])
      rw [List.cons_append, List.findSome?_cons, later, get?_define known, free k (by simp)]
      by_cases same : k = i <;> simp [same]
  rw [get, lookup?, define, chain_update, ← define, way, found]
  rfl

theorem get_define_of_other (known : i < h.next) (v : Value)
    (unseen : ¬ (m = n ∧ h.Unshadowed n j i)) : (h.define i n v).get j m = h.get j m := by
  have found (chain : List FrameId) (unseen : ¬ (m = n ∧ ∃ nearer further,
      chain = nearer ++ i :: further ∧ ∀ k ∈ nearer, (h.bindings k).get? n = none)) :
      chain.findSome? (fun k => ((h.define i n v).bindings k).get? m) =
        chain.findSome? fun k => (h.bindings k).get? m := by
    induction chain with
    | nil => rfl
    | cons k rest ih =>
      have untouched : ¬ (k = i ∧ n = m) := by
        rintro ⟨rfl, rfl⟩
        exact unseen ⟨rfl, [], rest, rfl, nofun⟩
      rw [List.findSome?_cons, List.findSome?_cons, get?_define known, if_neg untouched]
      cases bound : (h.bindings k).get? m with
      | some w => rfl
      | none =>
        refine ih ?_
        rintro ⟨rfl, nearer, further, rfl, free⟩
        exact unseen ⟨rfl, k :: nearer, further, rfl, by simpa using ⟨bound, free⟩⟩
  rw [get, get, lookup?, lookup?, define, chain_update, ← define, found _ unseen]

theorem get_undefine_of_other (known : i < h.next) (unseen : ¬ (m = n ∧ h.find? j n = some i)) :
    (h.undefine i n).get j m = h.get j m := by
  have found (chain : List FrameId) (unseen : ¬ (m = n ∧
      (chain.find? fun k => ((h.bindings k).get? n).isSome) = some i)) :
      chain.findSome? (fun k => ((h.undefine i n).bindings k).get? m) =
        chain.findSome? fun k => (h.bindings k).get? m := by
    induction chain with
    | nil => rfl
    | cons k rest ih =>
      rw [List.findSome?_cons, List.findSome?_cons, get?_undefine known]
      rw [List.find?_cons] at unseen
      cases bound : (h.bindings k).get? m with
      | some w =>
        have untouched : ¬ (k = i ∧ n = m) := by
          rintro ⟨rfl, rfl⟩
          exact unseen ⟨rfl, by simp [bound]⟩
        rw [if_neg untouched]
      | none =>
        rw [ite_self]
        refine ih ?_
        rintro ⟨rfl, later⟩
        exact unseen ⟨rfl, by simpa [bound] using later⟩
  rw [get, get, lookup?, lookup?, undefine, chain_update, ← undefine, found _ unseen]

theorem Search.le (outward : h.Outward) {found : Option FrameId} (search : Search h n f found) :
    ∀ g, found = some g → g ≤ f := by
  induction search with
  | here => rintro g ⟨⟩; exact Nat.le_refl _
  | outward _ outer _ ih =>
    exact fun g same => Nat.le_trans (ih g same) (Nat.le_of_lt (outward _ _ outer))
  | nowhere => nofun

theorem get_of_outer? (outward : h.Outward) (outer : h.outer? f = some g) (n : String) :
    h.get f n = ((h.bindings f).get? n).getD (h.get g n) := by
  rw [get, lookup?_of_outer? outward outer, get]
  cases (h.bindings f).get? n <;> rfl

theorem get_of_outermost (outward : h.Outward) (known : f < h.next) (outermost : h.outer? f = none)
    (n : String) : h.get f n = ((h.bindings f).get? n).getD (.str n) := by
  rw [get, lookup?_of_outermost outward known outermost]

/-- What was hidden is what the frame outside sees. -/
theorem get_undefine_of_search (outward : h.Outward) (known : j < h.next)
    (nearest : Search h n j (some i)) :
    (h.undefine i n).get j n = (h.outer? i).elim (.str n) fun g => h.get g n := by
  have present : i < h.next := Nat.lt_of_le_of_lt (nearest.le outward i rfl) known
  have outward' : (h.undefine i n).Outward := outward_update outward i _
  generalize same : some i = found at nearest
  induction nearest with
  | @here f =>
    cases same
    have free : ((h.undefine i n).bindings i).get? n = none := by simp [get?_undefine present]
    cases outer : h.outer? i with
    | none =>
      have outermost : (h.undefine i n).outer? i = none := (outer?_update ..).trans outer
      rw [get_of_outermost outward' (by rwa [undefine, next_update]) outermost, free]
      rfl
    | some g =>
      have outer' : (h.undefine i n).outer? i = some g := (outer?_update ..).trans outer
      have older := outward i g outer
      have apart : h.find? g n ≠ some i := by
        intro back
        have within := (search_find? outward (Nat.lt_trans older known) n).le outward i back
        exact absurd older (Nat.not_lt_of_le within)
      rw [get_of_outer? outward' outer', free]
      exact get_undefine_of_other present fun hidden => apart hidden.2
  | @outward f g found unbound outer search ih =>
    have older := outward f g outer
    have within := search.le outward i same.symm
    have apart : f ≠ i := fun same => absurd older (Nat.not_lt_of_le (same ▸ within))
    have outer' : (h.undefine i n).outer? f = some g := (outer?_update ..).trans outer
    have unbound' : ((h.undefine i n).bindings f).get? n = none := by
      rw [get?_undefine present, unbound, ite_self]
    rw [get_of_outer? outward' outer', unbound']
    exact ih (Nat.lt_trans older known) same
  | nowhere => cases same

theorem update_eq_self {change : Bindings → Bindings}
    (same : change (h.bindings f) = h.bindings f) : h.update f change = h := by
  have frames : (h.update f change).frames = h.frames := by
    apply Array.ext_getElem?
    intro g
    by_cases here : f = g
    · subst here
      cases found : h.frames[f]? with
      | none => simp [update, Array.getElem?_modify, found]
      | some frame =>
        have bindings : h.bindings f = frame.bindings := by rw [Heap.bindings, found]
        rw [bindings] at same
        rw [frames_update_same found, same]
    · exact frames_update_ne h here change
  exact congrArg Heap.mk frames

theorem undefine_eq_self (free : (h.bindings i).get? n = none) : h.undefine i n = h :=
  update_eq_self (Bindings.erase_eq_self (Bindings.get?_eq_none_iff.mp free))

end Heap

end SmallLisp
