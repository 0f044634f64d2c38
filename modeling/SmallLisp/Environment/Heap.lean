import SmallLisp.Environment.Bindings

/-! The heap of frames. A frame is shared by everything that holds its index, so a
definition made through one holder is seen by all. A frame's outer frame is older than
the frame itself, and the chain of outer frames ends at the root. -/
namespace SmallLisp

structure Frame where
  bindings : Bindings
  outer : Option FrameId

structure Heap where
  frames : Array Frame

namespace Heap

def root : FrameId := 0

/-- The heap of an empty root frame. -/
def initial : Heap := ⟨#[⟨[], none⟩]⟩

/-- The index of the next frame. -/
def next (h : Heap) : FrameId := h.frames.size

def push (h : Heap) (frame : Frame) : Heap := ⟨h.frames.push frame⟩

def update (h : Heap) (f : FrameId) (change : Bindings → Bindings) : Heap :=
  ⟨h.frames.modify f fun frame => { frame with bindings := change frame.bindings }⟩

def define (h : Heap) (f : FrameId) (name : String) (v : Value) : Heap :=
  h.update f (·.insert name v)

def undefine (h : Heap) (f : FrameId) (name : String) : Heap :=
  h.update f (·.erase name)

def bindings (h : Heap) (f : FrameId) : Bindings :=
  match h.frames[f]? with
  | some frame => frame.bindings
  | none => []

def outer? (h : Heap) (f : FrameId) : Option FrameId := h.frames[f]?.bind Frame.outer

/-- Names bound in the frame itself, in order of definition. -/
def names (h : Heap) (f : FrameId) : List String := (h.bindings f).names

/-- At most so many frames outward from `f`. -/
def chainFrom (h : Heap) : Nat → FrameId → List FrameId
  | 0, _ => []
  | fuel + 1, f =>
    if f < h.next then
      f :: match h.outer? f with
        | some outer => h.chainFrom fuel outer
        | none => []
    else []

/-- The frame and its outer frames. As each is older than the one before, `f + 1` steps
reach the last. -/
def chain (h : Heap) (f : FrameId) : List FrameId := h.chainFrom (f + 1) f

/-- The nearest frame that binds the name. -/
def find? (h : Heap) (f : FrameId) (name : String) : Option FrameId :=
  (h.chain f).find? fun g => ((h.bindings g).get? name).isSome

def contains (h : Heap) (f : FrameId) (name : String) : Bool := (h.find? f name).isSome

/-- The nearest binding of the name. -/
def lookup? (h : Heap) (f : FrameId) (name : String) : Option Value :=
  (h.chain f).findSome? fun g => (h.bindings g).get? name

/-- A name that nothing binds stands for its own text. -/
def get (h : Heap) (f : FrameId) (name : String) : Value :=
  (h.lookup? f name).getD (.str name)

@[simp] theorem next_push (h : Heap) (frame : Frame) : (h.push frame).next = h.next + 1 := by
  simp [push, next]

@[simp] theorem next_update (h : Heap) (f : FrameId) (change : Bindings → Bindings) :
    (h.update f change).next = h.next := by
  simp [update, next]

theorem frames_push (h : Heap) (frame : Frame) (g : FrameId) :
    (h.push frame).frames[g]? = if g = h.next then some frame else h.frames[g]? :=
  Array.getElem?_push

/-- A frame is changed alone. -/
theorem frames_update_ne (h : Heap) {f g : FrameId} (apart : f ≠ g)
    (change : Bindings → Bindings) : (h.update f change).frames[g]? = h.frames[g]? := by
  simp [update, Array.getElem?_modify, apart]

@[simp] theorem outer?_update (h : Heap) (f g : FrameId) (change : Bindings → Bindings) :
    (h.update f change).outer? g = h.outer? g := by
  by_cases same : f = g
  · subst same
    simp only [outer?, update, Array.getElem?_modify]
    cases h.frames[f]? <;> rfl
  · simp [outer?, frames_update_ne h same]

theorem bindings_update (h : Heap) {f : FrameId} (known : f < h.next) (g : FrameId)
    (change : Bindings → Bindings) :
    (h.update f change).bindings g = if g = f then change (h.bindings f) else h.bindings g := by
  by_cases same : f = g
  · subst same
    have known : f < h.frames.size := known
    simp [bindings, update, Array.getElem_modify, known]
  · simp [bindings, frames_update_ne h same, Ne.symm same]

end Heap

end SmallLisp
