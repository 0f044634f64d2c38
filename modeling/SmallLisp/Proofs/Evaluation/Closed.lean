import SmallLisp.Proofs.Evaluation.Locality
import SmallLisp.Proofs.Evaluation.Paired

/-! Machines in which nothing refers to a frame or a procedure that has not been made. They are
linked to themselves, and a run beside itself shows that it leaves such a machine so. -/
namespace SmallLisp

/-- All numbers are the same on both sides. -/
def Numbering.identity : Numbering := .shared 0 0 0 (Nat.le_refl _) (Nat.le_refl _)

def Renaming.identity : Renaming := ⟨.identity, .identity⟩

theorem Numbering.pairs_identity {count a b : Nat} :
    Numbering.identity.Pairs count a b ↔ a < count ∧ a = b := by
  simp [Numbering.identity, Numbering.shared, Numbering.Pairs]

/-- All that the machine refers to is in it: it is linked to itself. -/
structure Machine.Closed (m : Machine) : Prop where
  linked : Linked .identity m m
  root : Heap.root < m.heap.next

namespace Machine

variable {m : Machine}

/-- The procedures that occur in the value have been made, and so have their frames. -/
def Knows (m : Machine) (v : Value) : Prop :=
  ∀ id params body frame, (Value.proc id params body frame).OccursIn v →
    id < m.procedures ∧ frame < m.heap.next

theorem Knows.alike {v : Value} (knows : m.Knows v) : v.Alike (Renaming.identity.at m) v := by
  apply Value.alike_self
  intro id params body frame inside
  obtain ⟨made, exists'⟩ := knows id params body frame inside
  exact ⟨Numbering.pairs_identity.mpr ⟨made, rfl⟩, Numbering.pairs_identity.mpr ⟨exists', rfl⟩⟩

theorem knows_symbol (name : String) : m.Knows (.symbol name) :=
  fun _ _ _ _ inside => nomatch inside

theorem knows_list {items : List Value} (each : ∀ v ∈ items, m.Knows v) :
    m.Knows (.list items) := by
  intro id params body frame inside
  cases inside with
  | item member inside => exact each _ member id params body frame inside

theorem closed_initial (level : Level) (seed : Nat) : { Machine.initial with level, seed }.Closed where
  linked := by
    have only {f g : FrameId} (pairs : (Renaming.identity.at Machine.initial).frames f g) :
        f = Heap.root ∧ g = Heap.root := by
      obtain ⟨known, rfl⟩ := Numbering.pairs_identity.mp pairs
      exact ⟨Nat.lt_one_iff.mp known, Nat.lt_one_iff.mp known⟩
    have counts (n : Nat) : Numbering.identity.Counts n n := ⟨Nat.zero_le n, rfl⟩
    refine ⟨⟨fun f g pairs => ?_, fun f g pairs => ?_, fun f g pairs => ?_⟩, Heap.forest_initial,
      Heap.forest_initial, counts _, counts _, rfl, rfl, rfl⟩
    all_goals obtain ⟨rfl, rfl⟩ := only pairs
    · exact ⟨Nat.zero_lt_one, Nat.zero_lt_one⟩
    · exact .nil
    · exact .none
  root := Nat.zero_lt_one

theorem Closed.reported (closed : m.Closed) (printed : String) (events : Array Event) :
    { m with printed, events }.Closed where
  linked := ⟨closed.linked.heap, closed.linked.left, closed.linked.right, closed.linked.frames,
    closed.linked.procedures, rfl, rfl, rfl⟩
  root := closed.root

theorem Closed.paired_root (closed : m.Closed) :
    (Renaming.identity.at m).frames Heap.root Heap.root :=
  Numbering.pairs_identity.mpr ⟨closed.root, rfl⟩

/-- A run beside itself shows that it leaves the machine closed. -/
theorem Closed.after (closed : m.Closed) {x : Eval Value}
    (paired : Eval.PairedValue .identity x x m m) : (SmallLisp.after x m).Closed := by
  obtain ⟨linked, grows⟩ := paired.after
  exact ⟨linked, (Numbering.pairs_identity.mp (grows.1 _ _ closed.paired_root)).1⟩

theorem Closed.evaluate (closed : m.Closed) {expr : Value}
    (alike : expr.Alike (Renaming.identity.at m) expr) :
    (SmallLisp.after (Eval.evaluate expr Heap.root) m).Closed :=
  closed.after (Eval.paired_evaluateWithin .identity _ expr expr _ _ m m closed.linked alike
    closed.paired_root)

/-- Everything in `m` is in `m'` as it was, where there may be more. -/
structure Outgrows (m m' : Machine) : Prop where
  heap : m.heap.Keeps (fun _ => False) m'.heap
  forest : m'.heap.Forest
  procedures : m.procedures ≤ m'.procedures

theorem Closed.outgrows_newFrame (closed : m.Closed) (b : Bindings) {f : FrameId}
    (known : f < m.heap.next) : m.Outgrows { m with heap := m.heap.push ⟨b, some f⟩ } where
  heap := ⟨by rw [Heap.next_push]; exact Nat.le_succ _, fun g old _ => Heap.push_same g old⟩
  forest := closed.linked.left.push b known
  procedures := Nat.le_refl _

end Machine

section

variable {m m₁ m₂ : Machine}

/-- What is in `m` stands for itself in two machines that have it. -/
def Renaming.beside (left : m.procedures ≤ m₁.procedures) (right : m.Outgrows m₂) : Renaming where
  frames := .shared m.heap.next m.heap.next m₂.heap.next (Nat.le_refl _) right.heap.grows
  procedures := .shared m.procedures m₁.procedures m₂.procedures left right.procedures

variable (left : m.procedures ≤ m₁.procedures) (right : m.Outgrows m₂)

theorem Renaming.frames_beside (heap : m₁.heap = m.heap) {f g : FrameId} :
    ((Renaming.beside left right).at m₁).frames f g ↔ f < m.heap.next ∧ f = g := by
  rw [Renaming.at, heap]
  exact Numbering.pairs_shared (Nat.le_refl _) right.heap.grows

theorem Renaming.identity_le_beside (heap : m₁.heap = m.heap) :
    Renaming.identity.at m ≤ (Renaming.beside left right).at m₁ := by
  refine ⟨fun f g same => ?_, fun i j same => ?_⟩
  · exact (frames_beside left right heap).mpr (Numbering.pairs_identity.mp same)
  · exact (Numbering.pairs_shared left right.procedures).mpr (Numbering.pairs_identity.mp same)

theorem Machine.Closed.beside (closed : m.Closed) (heap : m₁.heap = m.heap)
    (printed : m₁.printed = m₂.printed) (level : m₁.level = m₂.level) (seed : m₁.seed = m₂.seed) :
    Linked (.beside left right) m₁ m₂ := by
  have alike : m.heap.Alike ((Renaming.beside left right).at m₁) m.heap :=
    closed.linked.heap.mono (Renaming.identity_le_beside left right heap) fun f g same =>
      Numbering.pairs_identity.mpr ((Renaming.frames_beside left right heap).mp same)
  refine ⟨heap ▸ alike.keeps right.heap.grows fun g known => right.heap.same g known not_false,
    heap ▸ closed.linked.left, right.forest, ?_, Numbering.counts_left, printed, level, seed⟩
  rw [heap]
  exact Numbering.counts_left

theorem Machine.Knows.beside {v : Value} (knows : m.Knows v) (heap : m₁.heap = m.heap) :
    v.Alike ((Renaming.beside left right).at m₁) v :=
  knows.alike.mono (Renaming.identity_le_beside left right heap)

end

end SmallLisp
