import SmallLisp.Evaluation.Evaluate
import SmallLisp.Proofs.Evaluation.Agreement
import SmallLisp.Proofs.Evaluation.Ends

/-! Two runs side by side. They keep machines linked: alike but for the numbers of their frames
and procedures. What is old on both sides stands for each other as it is given, and what is made
later stands for what the other run makes at the same point. -/
namespace SmallLisp

/-- Of the numbers below two counts each stands for another, but for those that are left out. -/
structure Covers (same : Nat → Nat → Prop) (count count' : Nat) (leftOut rightOut : Nat → Prop) :
    Prop where
  left : ∀ a < count, ¬ leftOut a → ∃ b, same a b
  right : ∀ b < count', ¬ rightOut b → ∃ a, same a b

theorem Covers.mono {same : Nat → Nat → Prop} {count count' : Nat}
    {leftOut leftOut' rightOut rightOut' : Nat → Prop}
    (covers : Covers same count count' leftOut rightOut)
    (left : ∀ a < count, leftOut a → leftOut' a) (right : ∀ b < count', rightOut b → rightOut' b) :
    Covers same count count' leftOut' rightOut' where
  left a used within := covers.left a used fun out => within (left a used out)
  right b used within := covers.right b used fun out => within (right b used out)

/-- Numbers of two runs that stand for each other: old ones as given, and the later ones, from
`left` and from `right` on, in their order. -/
structure Numbering where
  old : Nat → Nat → Prop
  left : Nat
  right : Nat
  bounded : ∀ a b, old a b → a < left ∧ b < right
  oneToOne : ∀ a b a' b', old a b → old a' b' → (a = a' ↔ b = b')

namespace Numbering

variable {n : Numbering} {count count' a b : Nat}

/-- Stand for each other while the left run has used so many numbers. -/
def Pairs (n : Numbering) (count a b : Nat) : Prop :=
  n.old a b ∨ n.left ≤ a ∧ a < count ∧ a + n.right = b + n.left

/-- The two runs have used equally many numbers since the old ones. -/
def Counts (n : Numbering) (count count' : Nat) : Prop :=
  n.left ≤ count ∧ count + n.right = count' + n.left

theorem Pairs.mono (pairs : n.Pairs count a b) (more : count ≤ count') : n.Pairs count' a b := by
  rcases pairs with old | ⟨later, used, same⟩
  · exact .inl old
  · exact .inr ⟨later, by omega, same⟩

theorem Pairs.lt (pairs : n.Pairs count a b) (counts : n.Counts count count') :
    a < count ∧ b < count' := by
  obtain ⟨enough, balance⟩ := counts
  rcases pairs with old | ⟨later, used, same⟩
  · have bounded := n.bounded a b old
    omega
  · omega

theorem Counts.pairs (counts : n.Counts count count') : n.Pairs (count + 1) count count' :=
  .inr ⟨counts.1, Nat.lt_succ_self _, counts.2⟩

theorem Counts.succ (counts : n.Counts count count') : n.Counts (count + 1) (count' + 1) := by
  obtain ⟨enough, balance⟩ := counts
  exact ⟨by omega, by omega⟩

theorem Counts.pairs_succ (counts : n.Counts count count') (pairs : n.Pairs (count + 1) a b) :
    n.Pairs count a b ∨ a = count ∧ b = count' := by
  obtain ⟨enough, balance⟩ := counts
  rcases pairs with old | ⟨later, used, same⟩
  · exact .inl (.inl old)
  · by_cases newest : a = count
    · exact .inr ⟨newest, by omega⟩
    · exact .inl (.inr ⟨later, by omega, same⟩)

theorem Pairs.oneToOne {a' b' : Nat} (pairs : n.Pairs count a b) (pairs' : n.Pairs count a' b') :
    a = a' ↔ b = b' := by
  rcases pairs with old | ⟨later, used, same⟩ <;> rcases pairs' with old' | ⟨later', used', same'⟩
  · exact n.oneToOne a b a' b' old old'
  · have bounded := n.bounded a b old
    omega
  · have bounded := n.bounded a' b' old'
    omega
  · omega

theorem pairs_left : n.Pairs n.left a b ↔ n.old a b := by
  constructor
  · rintro (old | ⟨later, used, -⟩)
    · exact old
    · omega
  · exact .inl

theorem counts_left : n.Counts n.left n.right := ⟨Nat.le_refl _, Nat.add_comm _ _⟩

/-- All old numbers stand for others, but for those that are left out. -/
def Complete (n : Numbering) (leftOut rightOut : Nat → Prop) : Prop :=
  Covers n.old n.left n.right leftOut rightOut

theorem Complete.pairs {leftOut rightOut : Nat → Prop} (complete : n.Complete leftOut rightOut)
    (counts : n.Counts count count') : Covers (n.Pairs count) count count' leftOut rightOut where
  left a used within := by
    by_cases early : a < n.left
    · obtain ⟨b, old⟩ := complete.left a early within
      exact ⟨b, .inl old⟩
    · exact ⟨a - n.left + n.right, .inr ⟨by omega, used, by omega⟩⟩
  right b used within := by
    obtain ⟨enough, balance⟩ := counts
    by_cases early : b < n.right
    · obtain ⟨a, old⟩ := complete.right b early within
      exact ⟨a, .inl old⟩
    · exact ⟨b - n.right + n.left, .inr ⟨by omega, by omega, by omega⟩⟩

/-- The first numbers are the same on both sides. -/
def shared (known left right : Nat) (onLeft : known ≤ left) (onRight : known ≤ right) :
    Numbering where
  old a b := a < known ∧ a = b
  left := left
  right := right
  bounded a b same := by omega
  oneToOne a b a' b' same same' := by omega

theorem pairs_shared {known left right : Nat} (onLeft : known ≤ left) (onRight : known ≤ right) :
    (shared known left right onLeft onRight).Pairs left a b ↔ a < known ∧ a = b :=
  pairs_left

theorem complete_shared {known left right : Nat} (onLeft : known ≤ left) (onRight : known ≤ right) :
    (shared known left right onLeft onRight).Complete (known ≤ ·) (known ≤ ·) where
  left a _ within := ⟨a, Nat.lt_of_not_le within, rfl⟩
  right b _ within := ⟨b, Nat.lt_of_not_le within, rfl⟩

theorem not_pairs_shared {known left right : Nat} (onLeft : known ≤ left) (onRight : known ≤ right)
    (unshared : known ≤ b) (used : b < right) :
    ¬ (shared known left right onLeft onRight).Pairs count a b := by
  rintro (⟨below, same⟩ | ⟨later, below, balance⟩)
  · omega
  · have later : left ≤ a := later
    have balance : a + right = b + left := balance
    omega

/-- A number on the right that stood for none now stands for the next one on the left. -/
def adopt (n : Numbering) (counts : n.Counts count count') (used : b < count')
    (stray : ∀ a, ¬ n.Pairs count a b) : Numbering where
  old a c := n.Pairs count a c ∨ a = count ∧ c = b
  left := count + 1
  right := count'
  bounded a c := by
    rintro (pairs | ⟨rfl, rfl⟩)
    · have := pairs.lt counts
      omega
    · omega
  oneToOne a c a' c' := by
    rintro (pairs | ⟨rfl, rfl⟩) (pairs' | ⟨rfl, rfl⟩)
    · exact pairs.oneToOne pairs'
    · have below := (pairs.lt counts).1
      have other : c ≠ c' := fun same => stray a (same ▸ pairs)
      omega
    · have below := (pairs'.lt counts).1
      have other : c' ≠ c := fun same => stray a' (same ▸ pairs')
      omega
    · omega

theorem Complete.adopt {leftOut : Nat → Prop} (complete : n.Complete leftOut (· = b))
    (counts : n.Counts count count') (used : b < count') (stray : ∀ a, ¬ n.Pairs count a b) :
    (n.adopt counts used stray).Complete leftOut fun _ => False where
  left a below within := by
    rcases Nat.lt_succ_iff_lt_or_eq.mp below with before | rfl
    · obtain ⟨c, pairs⟩ := (complete.pairs counts).left a before within
      exact ⟨c, .inl pairs⟩
    · exact ⟨b, .inr ⟨rfl, rfl⟩⟩
  right c below _ := by
    by_cases same : c = b
    · exact ⟨count, .inr ⟨rfl, same⟩⟩
    · obtain ⟨a, pairs⟩ := (complete.pairs counts).right c below same
      exact ⟨a, .inl pairs⟩

end Numbering

structure Renaming where
  frames : Numbering
  procedures : Numbering

/-- What stands for each other when the left run is at the machine. -/
def Renaming.at (r : Renaming) (m : Machine) : Matching where
  frames := r.frames.Pairs m.heap.next
  procedures := r.procedures.Pairs m.procedures

theorem Renaming.oneToOne (r : Renaming) (m : Machine) : (r.at m).OneToOne where
  frames _ _ _ _ pairs pairs' := pairs.oneToOne pairs'
  procedures _ _ _ _ pairs pairs' := pairs.oneToOne pairs'

theorem Renaming.at_mono {r : Renaming} {m m₁ : Machine} (frames : m.heap.next ≤ m₁.heap.next)
    (procedures : m.procedures ≤ m₁.procedures) : r.at m ≤ r.at m₁ :=
  ⟨fun _ _ pairs => pairs.mono frames, fun _ _ pairs => pairs.mono procedures⟩

/-- Machines that two runs are at, side by side. What they have logged may differ. -/
structure Linked (r : Renaming) (m m' : Machine) : Prop where
  heap : m.heap.Alike (r.at m) m'.heap
  left : m.heap.Forest
  right : m'.heap.Forest
  frames : r.frames.Counts m.heap.next m'.heap.next
  procedures : r.procedures.Counts m.procedures m'.procedures
  printed : m.printed = m'.printed
  level : m.level = m'.level
  seed : m.seed = m'.seed

/-- The same change made to frames that stand for each other. -/
theorem Linked.update {r : Renaming} {m m' : Machine} (linked : Linked r m m') {f g : FrameId}
    (same : (r.at m).frames f g) {change change' : Bindings → Bindings}
    (keeps : ∀ b b', b.Alike (r.at m) b' → (change b).Alike (r.at m) (change' b')) :
    Linked r { m with heap := m.heap.update f change }
      { m' with heap := m'.heap.update g change' } := by
  have at_eq : r.at { m with heap := m.heap.update f change } = r.at m := by
    simp only [Renaming.at, Heap.next_update]
  refine ⟨?_, linked.left.update f change, linked.right.update g change', ?_, linked.procedures,
    linked.printed, linked.level, linked.seed⟩
  · rw [at_eq]
    exact linked.heap.update (r.oneToOne m) same keeps
  · simpa only [Heap.next_update] using linked.frames

namespace Eval

variable {α α' β β' : Type} {r : Renaming} {m m' : Machine}

/-- Both runs have results as described, or both fail in the same way, and leave linked machines.
What stood for each other before does so still. -/
inductive Meet (r : Renaming) (m : Machine) (done : α → β → Machine → Machine → Prop) :
    EStateM.Result EvalError Machine α → EStateM.Result EvalError Machine β → Prop where
  | ok {a : α} {b : β} {m₁ m₁' : Machine} : Linked r m₁ m₁' → r.at m ≤ r.at m₁ →
      done a b m₁ m₁' → Meet r m done (.ok a m₁) (.ok b m₁')
  | error {m₁ m₁' : Machine} (e : EvalError) : Linked r m₁ m₁' → r.at m ≤ r.at m₁ →
      Meet r m done (.error e m₁) (.error e m₁')

def Paired (r : Renaming) (x : Eval α) (y : Eval β) (m m' : Machine)
    (done : α → β → Machine → Machine → Prop) : Prop := Meet r m done (x m) (y m')

/-- Alike results. -/
abbrev PairedValue (r : Renaming) (x y : Eval Value) (m m' : Machine) : Prop :=
  Paired r x y m m' fun v w m₁ _ => v.Alike (r.at m₁) w

/-- What is seen of a run: the text of the value or the failure, and what has been printed. -/
def seen : EStateM.Result EvalError Machine Value → Except EvalError String × String
  | .ok v m => (.ok v.text, m.printed)
  | .error e m => (.error e, m.printed)

theorem PairedValue.seen_eq {x y : Eval Value} (paired : PairedValue r x y m m') :
    seen (x m) = seen (y m') := by
  unfold PairedValue Paired at paired
  generalize x m = ended, y m' = ended' at paired ⊢
  cases paired with
  | ok linked _ alike => rw [seen, seen, alike.text_eq, linked.printed]
  | error e linked _ => rw [seen, seen, linked.printed]

/-- Paired on alike expressions in frames that stand for each other. -/
def PairedEvaluator (r : Renaming) (ev ev' : Evaluator) : Prop :=
  ∀ expr expr' f g m m', Linked r m m' → expr.Alike (r.at m) expr' → (r.at m).frames f g →
    PairedValue r (ev expr f) (ev' expr' g) m m'

variable {x : Eval α} {y : Eval β} {done : α → β → Machine → Machine → Prop}

theorem paired_pure (linked : Linked r m m') {a : α} {b : β} (h : done a b m m') :
    Paired r (pure a) (pure b) m m' done := .ok linked (Matching.le_refl _) h

theorem paired_throw (linked : Linked r m m') (e : EvalError) :
    Paired r (throw e : Eval α) (throw e : Eval β) m m' done :=
  .error e linked (Matching.le_refl _)

theorem paired_ofExcept (linked : Linked r m m') (done : α → β → Machine → Machine → Prop)
    {R : α → β → Prop} {s : Except EvalError α} {t : Except EvalError β} (agree : Agree R s t)
    (each : ∀ a b, R a b → done a b m m') :
    Paired r (ofExcept s) (ofExcept t) m m' done := by
  cases agree with
  | ok related => exact paired_pure linked (each _ _ related)
  | error e => exact paired_throw linked e

theorem Paired.bind {next : α → Eval α'} {next' : β → Eval β'}
    {done' : α' → β' → Machine → Machine → Prop} (paired : Paired r x y m m' done)
    (rest : ∀ a b m₁ m₁', Linked r m₁ m₁' → r.at m ≤ r.at m₁ → done a b m₁ m₁' →
      Paired r (next a) (next' b) m₁ m₁' done') :
    Paired r (x >>= next) (y >>= next') m m' done' := by
  change Meet r m done' (EStateM.bind x next m) (EStateM.bind y next' m')
  rw [EStateM.bind, EStateM.bind]
  unfold Paired at paired rest
  generalize x m = ended, y m' = ended' at paired
  cases paired with
  | error e linked grows => exact .error e linked grows
  | @ok a b m₁ m₁' linked grows result =>
    have further := rest a b m₁ m₁' linked grows result
    simp only
    generalize next a m₁ = ended, next' b m₁' = ended' at further
    cases further with
    | ok linked' grows' result' => exact .ok linked' (Matching.le_trans grows grows') result'
    | error e linked' grows' => exact .error e linked' (Matching.le_trans grows grows')

/-- A last step of the run on the left that changes nothing but the result. -/
theorem Paired.map {done' : α' → β → Machine → Machine → Prop} (paired : Paired r x y m m' done)
    (change : α → α')
    (each : ∀ a b m₁ m₁', r.at m ≤ r.at m₁ → done a b m₁ m₁' → done' (change a) b m₁ m₁') :
    Paired r (do return change (← x)) y m m' done' := by
  change Meet r m done' (EStateM.bind x (fun a => pure (change a)) m) (y m')
  rw [EStateM.bind]
  unfold Paired at paired
  generalize x m = ended, y m' = ended' at paired
  cases paired with
  | error e linked grows => exact .error e linked grows
  | ok linked grows result => exact .ok linked grows (each _ _ _ _ grows result)

/-- However the two runs end. -/
theorem Paired.after (paired : Paired r x y m m' done) :
    Linked r (after x m) (after y m') ∧ r.at m ≤ r.at (SmallLisp.after x m) := by
  unfold Paired at paired
  simp only [SmallLisp.after]
  generalize x m = ended, y m' = ended' at paired ⊢
  cases paired with
  | ok linked grows _ => exact ⟨linked, grows⟩
  | error _ linked grows => exact ⟨linked, grows⟩

/-- What the run on the right shows alone. -/
theorem Paired.and_right {held : β → Machine → Prop} {failed : EvalError → Machine → Prop}
    (paired : Paired r x y m m' done) (ends : Ends y m' held failed) :
    Paired r x y m m' fun a b m₁ m₁' => done a b m₁ m₁' ∧ held b m₁' := by
  unfold Paired at paired ⊢
  unfold Ends at ends
  generalize x m = ended, y m' = ended' at paired ends ⊢
  cases paired with
  | ok linked grows result => exact .ok linked grows ⟨result, ends⟩
  | error e linked grows => exact .error e linked grows

/-- There is room for the one message just when there is for the other. -/
theorem paired_log (linked : Linked r m m') (e e' : Event) (level : e.level = e'.level)
    (values : Value.AlikeAll (r.at m) e.values e'.values) :
    Paired r (log e) (log e') m m' fun _ _ _ _ => True := by
  have room : e.Overflows m.level ↔ e'.Overflows m'.level := by
    rw [Event.Overflows, Event.Overflows, level, linked.level, Value.exists_not_writable_iff values]
  unfold Paired log
  by_cases overflows : e.Overflows m.level
  · rw [if_pos overflows, if_pos (room.mp overflows)]
    exact .error .tooDeep linked (Matching.le_refl _)
  · rw [if_neg overflows, if_neg (mt room.mpr overflows)]
    exact .ok ⟨linked.heap, linked.left, linked.right, linked.frames, linked.procedures,
      linked.printed, linked.level, linked.seed⟩ (Matching.le_refl _) trivial

theorem paired_print (linked : Linked r m m') (text : String) :
    Paired r (print text) (print text) m m' fun _ _ _ _ => True := by
  have same : m.printed ++ text = m'.printed ++ text := by rw [linked.printed]
  exact .ok ⟨linked.heap, linked.left, linked.right, linked.frames, linked.procedures, same,
    linked.level, linked.seed⟩ (Matching.le_refl _) trivial

/-- A choice depends on nothing but the seed, and moves nothing else. -/
theorem choose_of_seed (n : Nat) (m : Machine) :
    ∃ i seed, ∀ m' : Machine, m.seed = m'.seed → choose n m' = .ok i { m' with seed } := by
  let seed := (m.seed * 6364136223846793005 + 1442695040888963407) % Nat.pow 2 64
  refine ⟨seed / Nat.pow 2 33 % n, seed, fun m' same => ?_⟩
  simp only [seed, same]
  rfl

theorem paired_choose (linked : Linked r m m') (n : Nat) :
    Paired r (choose n) (choose n) m m' fun i j _ _ => i = j := by
  obtain ⟨i, seed, drawn⟩ := choose_of_seed n m
  rw [Paired, drawn m rfl, drawn m' linked.seed]
  exact .ok ⟨linked.heap, linked.left, linked.right, linked.frames, linked.procedures,
    linked.printed, linked.level, rfl⟩ (Renaming.at_mono (Nat.le_refl _) (Nat.le_refl _)) rfl

/-- The same change made to frames that stand for each other. -/
theorem paired_update (linked : Linked r m m') {f g : FrameId} (same : (r.at m).frames f g)
    {change change' : Bindings → Bindings}
    (keeps : ∀ b b', b.Alike (r.at m) b' → (change b).Alike (r.at m) (change' b')) :
    Paired r (modify fun m => { m with heap := m.heap.update f change } : Eval Unit)
      (modify fun m => { m with heap := m.heap.update g change' } : Eval Unit) m m'
      fun _ _ _ _ => True := by
  have kept : m.heap.next ≤ (m.heap.update f change).next := Nat.le_of_eq (Heap.next_update ..).symm
  exact .ok (linked.update same keeps) (Renaming.at_mono kept (Nat.le_refl _)) trivial

theorem paired_define (linked : Linked r m m') {f g : FrameId} (same : (r.at m).frames f g)
    (n : String) {v w : Value} (value : v.Alike (r.at m) w) :
    Paired r (define f n v) (define g n w) m m' fun _ _ _ _ => True :=
  paired_update linked same fun _ _ alike => alike.insert n value

theorem paired_undefine (linked : Linked r m m') {f g : FrameId} (same : (r.at m).frames f g)
    (n : String) : Paired r (undefine f n) (undefine g n) m m' fun _ _ _ _ => True :=
  paired_update linked same fun _ _ alike => alike.erase n

theorem paired_newFrame (linked : Linked r m m') {b b' : Bindings} (bindings : b.Alike (r.at m) b')
    {f g : FrameId} (same : (r.at m).frames f g) :
    Paired r (newFrame b f) (newFrame b' g) m m' fun i j m₁ _ => (r.at m₁).frames i j := by
  have known := linked.heap.known f g same
  have more : m.heap.next ≤ (m.heap.push ⟨b, some f⟩).next := by
    rw [Heap.next_push]
    exact Nat.le_succ _
  have grows : r.at m ≤ r.at { m with heap := m.heap.push ⟨b, some f⟩ } :=
    Renaming.at_mono more (Nat.le_refl _)
  have new : ∀ i j, (r.at { m with heap := m.heap.push ⟨b, some f⟩ }).frames i j →
      (r.at m).frames i j ∨ i = m.heap.next ∧ j = m'.heap.next := by
    intro i j pairs
    simp only [Renaming.at, Heap.next_push] at pairs
    exact linked.frames.pairs_succ pairs
  refine .ok ⟨linked.heap.push grows new bindings same, linked.left.push b known.1,
    linked.right.push b' known.2, ?_, linked.procedures, linked.printed, linked.level, linked.seed⟩
    grows ?_
  · simpa only [Heap.next_push] using linked.frames.succ
  · simp only [Renaming.at, Heap.next_push]
    exact linked.frames.pairs

theorem paired_newProcedure (linked : Linked r m m') (params : List String) {body body' : Value}
    (alike : body.Alike (r.at m) body') {f g : FrameId} (same : (r.at m).frames f g) :
    PairedValue r (newProcedure params body f) (newProcedure params body' g) m m' := by
  have grows : r.at m ≤ r.at { m with procedures := m.procedures + 1 } :=
    Renaming.at_mono (Nat.le_refl _) (Nat.le_succ _)
  have heap := linked.heap.mono grows fun _ _ => id
  exact .ok ⟨heap, linked.left, linked.right, linked.frames, linked.procedures.succ, linked.printed,
    linked.level, linked.seed⟩ grows (.proc linked.procedures.pairs (alike.mono grows) (grows.1 _ _ same))

theorem paired_lookup (linked : Linked r m m') {f g : FrameId} (same : (r.at m).frames f g)
    (n : String) : PairedValue r (lookup f n) (lookup g n) m m' :=
  .ok linked (Matching.le_refl _) (linked.heap.get linked.left linked.right same n)

theorem paired_names (linked : Linked r m m') {f g : FrameId} (same : (r.at m).frames f g) :
    Paired r (names f) (names g) m m' fun ns ns' _ _ => ns = ns' :=
  .ok linked (Matching.le_refl _) (linked.heap.names_eq same)

end Eval

end SmallLisp
