import SmallLisp.Environment.Heap
import SmallLisp.Proofs.Value.Sound

/-! Sound heaps of frames: each frame binds a name once, to a sound value, and its outer
frame is older than the frame itself. -/
namespace SmallLisp

namespace Bindings

variable {name : String → Prop} {frames : Nat}

structure Sound (name : String → Prop) (frames : Nat) (b : Bindings) : Prop where
  keys : ∀ d ∈ b, name d.1
  values : ∀ d ∈ b, d.2.Sound name frames
  nodup : b.names.Nodup

theorem mem_insert {d : String × Value} {n : String} {v : Value} {b : Bindings}
    (member : d ∈ insert n v b) : d = (n, v) ∨ d ∈ b := by
  induction b with
  | nil => exact .inl (List.mem_singleton.mp member)
  | cons e rest ih =>
    rw [insert] at member
    split at member
    · rcases List.mem_cons.mp member with same | later
      · exact .inl same
      · exact .inr (by simp [later])
    · rcases List.mem_cons.mp member with same | later
      · exact .inr (by simp [same])
      · exact (ih later).imp_right fun old => by simp [old]

theorem mem_names_insert {k n : String} {v : Value} {b : Bindings}
    (member : k ∈ (insert n v b).names) : k = n ∨ k ∈ b.names := by
  obtain ⟨d, inserted, rfl⟩ := List.mem_map.mp member
  exact (mem_insert inserted).imp (fun same => by rw [same]) fun old => List.mem_map_of_mem old

/-- A name that is bound keeps its place, and another one comes last. -/
theorem nodup_insert (n : String) (v : Value) {b : Bindings} (nodup : b.names.Nodup) :
    (insert n v b).names.Nodup := by
  induction b with
  | nil => simp [insert, names]
  | cons d rest ih =>
    obtain ⟨fresh, distinct⟩ : d.1 ∉ names rest ∧ (names rest).Nodup := List.nodup_cons.mp nodup
    rw [insert]
    split
    · next same => exact List.nodup_cons.mpr ⟨same ▸ fresh, distinct⟩
    · next other =>
      refine List.nodup_cons.mpr ⟨fun member => ?_, ih distinct⟩
      exact (mem_names_insert member).elim other fresh

theorem mem_of_get? {n : String} {v : Value} {b : Bindings} (bound : b.get? n = some v) :
    (n, v) ∈ b := by
  induction b with
  | nil => cases bound
  | cons d rest ih =>
    rw [get?] at bound
    split at bound
    · next same => cases bound; simp [← same]
    · exact List.mem_cons_of_mem d (ih bound)

theorem get?_eq_none {n : String} {b : Bindings} (free : n ∉ b.names) : b.get? n = none := by
  induction b with
  | nil => rfl
  | cons d rest ih =>
    obtain ⟨apart, free⟩ := List.ne_and_not_mem_of_not_mem_cons free
    rw [get?, if_neg (Ne.symm apart), ih free]

theorem insert_new {n : String} {b : Bindings} (fresh : n ∉ b.names) (v : Value) :
    b.insert n v = b ++ [(n, v)] := by
  induction b with
  | nil => rfl
  | cons d rest ih =>
    obtain ⟨apart, fresh⟩ := List.ne_and_not_mem_of_not_mem_cons fresh
    rw [insert, if_neg (Ne.symm apart), ih fresh, List.cons_append]

theorem sound_nil : Sound name frames ([] : Bindings) := ⟨nofun, nofun, .nil⟩

theorem Sound.mono {b : Bindings} (sound : Sound name frames b) {more : Nat}
    (grows : frames ≤ more) : Sound name more b :=
  ⟨sound.keys, fun d member => (sound.values d member).mono grows, sound.nodup⟩

theorem Sound.insert {b : Bindings} (sound : Sound name frames b) {n : String} {v : Value}
    (named : name n) (value : v.Sound name frames) : Sound name frames (b.insert n v) where
  keys d member := by
    rcases mem_insert member with rfl | old
    · exact named
    · exact sound.keys d old
  values d member := by
    rcases mem_insert member with rfl | old
    · exact value
    · exact sound.values d old
  nodup := nodup_insert n v sound.nodup

theorem Sound.erase {b : Bindings} (sound : Sound name frames b) (n : String) :
    Sound name frames (b.erase n) where
  keys d member := sound.keys d (List.mem_filter.mp member).1
  values d member := sound.values d (List.mem_filter.mp member).1
  nodup := List.Nodup.sublist (List.Sublist.map Prod.fst List.filter_sublist) sound.nodup

/-- A list of definitions leaves sound bindings, also where it repeats a name. -/
theorem sound_ofDefinitions {definitions : List (String × Value)}
    (named : ∀ d ∈ definitions, name d.1) (values : ∀ d ∈ definitions, d.2.Sound name frames) :
    Sound name frames (ofDefinitions definitions) := by
  have extend (ds : List (String × Value)) (b : Bindings) (sound : Sound name frames b)
      (within : ∀ d ∈ ds, d ∈ definitions) :
      Sound name frames (ds.foldl (fun b d => Bindings.insert d.1 d.2 b) b) := by
    induction ds generalizing b with
    | nil => exact sound
    | cons d rest ih =>
      have member := within d (by simp)
      exact ih _ (sound.insert (named d member) (values d member))
        fun e later => within e (by simp [later])
  exact extend definitions [] sound_nil fun _ member => member

end Bindings

namespace Heap

variable {name : String → Prop} {h : Heap}

structure Sound (name : String → Prop) (h : Heap) : Prop where
  bindings : ∀ f, (h.bindings f).Sound name h.next
  outer : ∀ f g, h.outer? f = some g → g < f

theorem sound_initial : initial.Sound name where
  bindings f := by
    cases f with
    | zero => exact Bindings.sound_nil
    | succ f => exact Bindings.sound_nil
  outer f g found := by
    cases f with
    | zero => cases found
    | succ f => cases found

theorem Sound.update (sound : h.Sound name) {f : FrameId} {change : Bindings → Bindings}
    (keeps : ∀ b, Bindings.Sound name h.next b → Bindings.Sound name h.next (change b)) :
    (h.update f change).Sound name where
  bindings g := by
    rw [next_update]
    by_cases known : f < h.next
    · rw [bindings_update h known]
      split
      · exact keeps _ (sound.bindings f)
      · exact sound.bindings g
    · -- there is no such frame, so nothing is changed
      have same : (h.update f change).frames[g]? = h.frames[g]? := by
        by_cases other : f = g
        · subst other
          have absent : h.frames[f]? = none := Array.getElem?_eq_none (Nat.le_of_not_lt known)
          simp [Heap.update, Array.getElem?_modify, absent]
        · exact frames_update_ne h other change
      rw [Heap.bindings, same]
      exact sound.bindings g
  outer g g' found := by
    rw [outer?_update] at found
    exact sound.outer g g' found

theorem Sound.define (sound : h.Sound name) (f : FrameId) {n : String} {v : Value}
    (named : name n) (value : v.Sound name h.next) : (h.define f n v).Sound name :=
  sound.update fun _ bindings => bindings.insert named value

theorem Sound.undefine (sound : h.Sound name) (f : FrameId) (n : String) :
    (h.undefine f n).Sound name :=
  sound.update fun _ bindings => bindings.erase n

theorem Sound.push (sound : h.Sound name) {b : Bindings} (bindings : b.Sound name h.next)
    {outer : FrameId} (known : outer < h.next) : (h.push ⟨b, some outer⟩).Sound name where
  bindings g := by
    rw [next_push, Heap.bindings, frames_push]
    by_cases newest : g = h.next
    · rw [if_pos newest]
      exact bindings.mono (Nat.le_succ _)
    · rw [if_neg newest]
      exact (sound.bindings g).mono (Nat.le_succ _)
  outer g g' found := by
    rw [outer?, frames_push] at found
    by_cases newest : g = h.next
    · rw [if_pos newest] at found
      cases found
      rw [newest]
      exact known
    · rw [if_neg newest] at found
      exact sound.outer g g' found

/-- What a name means is sound. A name that nothing binds means its text. -/
theorem Sound.get (sound : h.Sound name) (f : FrameId) (n : String) :
    (h.get f n).Sound name h.next := by
  simp only [Heap.get]
  cases found : h.lookup? f n with
  | none => exact .str n
  | some v =>
    obtain ⟨g, _, bound⟩ := List.exists_of_findSome?_eq_some found
    exact (sound.bindings g).values _ (Bindings.mem_of_get? bound)

theorem bindings_define_new {f : FrameId} {n : String} (known : f < h.next)
    (fresh : n ∉ h.names f) (v : Value) :
    (h.define f n v).bindings f = h.bindings f ++ [(n, v)] := by
  rw [define, bindings_update _ known, if_pos rfl, Bindings.insert_new fresh]

end Heap

end SmallLisp
