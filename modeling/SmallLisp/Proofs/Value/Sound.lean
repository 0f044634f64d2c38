import SmallLisp.Evaluation.Procedure

/-! Sound values: what every value of the language is, as far as its type does not say it.
Integers fit in 64 bits, calls can bind the parameters of a procedure, a procedure has a
frame to run in, and nothing is foreign. What a name must be is a parameter. A sound value may nest
too deep to be written or compared. -/
namespace SmallLisp

namespace Procedure

/-- The marker is absent, or its first place is second to last. -/
def BindsWell (params : List String) : Prop :=
  restMarker ∈ params → params.idxOf restMarker + 2 = params.length

theorem idxOf?_of_mem {params : List String} (present : restMarker ∈ params) :
    params.idxOf? restMarker = some (params.idxOf restMarker) := by
  induction params with
  | nil => simp at present
  | cons p rest ih =>
    rw [List.idxOf?_cons, List.idxOf_cons]
    by_cases same : p = restMarker
    · simp [same]
    · have later : restMarker ∈ rest := by simpa [Ne.symm same] using present
      simp [beq_false_of_ne same, ih later]

theorem wellPlaced_iff (params : List String) : wellPlaced params = true ↔ BindsWell params := by
  simp only [wellPlaced, BindsWell]
  by_cases present : restMarker ∈ params
  · simp [idxOf?_of_mem present, present]
  · simp [List.idxOf?_eq_none_iff.mpr present, present]

end Procedure

namespace Value

/-- Sound where the names are of a kind and there are so many frames. -/
inductive Sound (name : String → Prop) (frames : Nat) : Value → Prop where
  | symbol {s : String} : name s → Sound name frames (.symbol s)
  | str (text : String) : Sound name frames (.str text)
  | int {n : Int} : InRange n → Sound name frames (.int n)
  | float (x : Binary64) : Sound name frames (.float x)
  | bool (b : Bool) : Sound name frames (.bool b)
  | list {items : List Value} : (∀ v ∈ items, Sound name frames v) → Sound name frames (.list items)
  | proc {id : Nat} {params : List String} {body : Value} {frame : FrameId} :
      (∀ p ∈ params, name p) → Procedure.BindsWell params → Sound name frames body →
      frame < frames → Sound name frames (.proc id params body frame)
  | nil : Sound name frames .nil

variable {name : String → Prop} {frames : Nat} {v : Value}

/-- A frame that exists goes on existing. -/
theorem Sound.mono (sound : Sound name frames v) {more : Nat} (grows : frames ≤ more) :
    Sound name more v := by
  induction sound with
  | symbol named => exact .symbol named
  | str text => exact .str text
  | int fits => exact .int fits
  | float x => exact .float x
  | bool b => exact .bool b
  | list _ ih => exact .list ih
  | proc named binds _ exists' ih =>
    exact .proc named binds ih (Nat.lt_of_lt_of_le exists' grows)
  | nil => exact .nil

theorem Sound.imp {name' : String → Prop} (sound : Sound name frames v)
    (weaker : ∀ s, name s → name' s) : Sound name' frames v := by
  induction sound with
  | symbol named => exact .symbol (weaker _ named)
  | str text => exact .str text
  | int fits => exact .int fits
  | float x => exact .float x
  | bool b => exact .bool b
  | list _ ih => exact .list ih
  | proc named binds _ known ih => exact .proc (fun p member => weaker p (named p member)) binds ih known
  | nil => exact .nil

theorem Sound.items {items : List Value} (sound : Sound name frames (.list items)) :
    ∀ v ∈ items, Sound name frames v := by
  cases sound with
  | list each => exact each

theorem Sound.symbol_name {s : String} (sound : Sound name frames (.symbol s)) : name s := by
  cases sound with
  | symbol named => exact named

theorem Sound.int_inRange {n : Int} (sound : Sound name frames (.int n)) : InRange n := by
  cases sound with
  | int fits => exact fits

theorem not_sound_foreign {thing : Foreign} {parts : List Value} :
    ¬ Sound name frames (.foreign thing parts) := nofun

theorem foreignIn?_eq_none {items : List Value} (each : ∀ v ∈ items, v.foreign? = none) :
    foreignIn? items = none := by
  induction items with
  | nil => rfl
  | cons v rest ih =>
    rw [foreignIn?, each v (by simp)]
    exact ih fun w member => each w (by simp [member])

theorem Sound.foreign?_eq_none (sound : Sound name frames v) : v.foreign? = none := by
  induction sound with
  | list _ ih => rw [foreign?]; exact foreignIn?_eq_none ih
  | proc _ _ _ _ ih => rw [foreign?]; exact ih
  | _ => rfl

/-- A value that holds nothing foreign has a display, if there is room for it. -/
theorem display?_of_foreign?_eq_none (plain : v.foreign? = none) :
    v.display? = if v.Writable then .ok v.display else .error .tooDeep := by
  rw [display?, proper, plain]
  by_cases room : v.Writable
  · simp only [room, if_true, Except.map]
  · simp only [room, if_false, Except.map]

theorem Sound.display?_eq (sound : Sound name frames v) :
    v.display? = if v.Writable then .ok v.display else .error .tooDeep :=
  display?_of_foreign?_eq_none sound.foreign?_eq_none

theorem Sound.typeName?_eq (sound : Sound name frames v) : v.typeName? = .ok v.typeName := by
  cases sound <;> rfl

end Value

namespace EvalError

/-- The failures that a program can cause, those for want of room apart. -/
def IsRunError : EvalError → Prop
  | .problem .. | .outOfBounds _ | .wrongType .. | .uncallable .. | .wrongCount .. => True
  | .tooDeep | .misapplied _ | .notAValue _ | .undefined _ => False

variable {name : String → Prop} {frames : Nat} {v : Value}

theorem isRunError_mistyped (who expected : String) (sound : v.Sound name frames) :
    (mistyped who expected v).IsRunError := by
  rw [mistyped, sound.typeName?_eq]
  trivial

theorem isRunError_notCallable (called : String) (sound : v.Sound name frames) :
    (notCallable called v).IsRunError := by
  rw [notCallable, sound.typeName?_eq]
  trivial

end EvalError

/-- A result as described, a failure that a program can cause, or too little room. -/
def Yields {α : Type} (r : Except EvalError α) (done : α → Prop) : Prop :=
  match r with
  | .ok a => done a
  | .error e => e.IsRunError ∨ e = .tooDeep

variable {α β : Type} {done : α → Prop}

theorem yields_ok {a : α} (h : done a) : Yields (.ok a) done := h

theorem yields_error {e : EvalError} (h : e.IsRunError) : Yields (.error e : Except _ α) done :=
  .inl h

theorem yields_tooDeep : Yields (.error .tooDeep : Except _ α) done := .inr rfl

theorem Yields.bind {r : Except EvalError α} {next : α → Except EvalError β} {done' : β → Prop}
    (yields : Yields r done) (rest : ∀ a, done a → Yields (next a) done') :
    Yields (r >>= next) done' := by
  cases r with
  | ok a => exact rest a yields
  | error e => exact yields

theorem Yields.map {r : Except EvalError α} {f : α → β} {done' : β → Prop}
    (yields : Yields r done) (rest : ∀ a, done a → done' (f a)) : Yields (r.map f) done' := by
  cases r with
  | ok a => exact rest a yields
  | error e => exact yields

namespace Value

variable {name : String → Prop} {frames : Nat} {v : Value}

theorem Sound.yields_display? (sound : v.Sound name frames) : Yields v.display? fun _ => True := by
  rw [sound.display?_eq]
  split
  · exact yields_ok trivial
  · exact yields_tooDeep

theorem yields_equal? (a b : Value) : Yields (a.equal? b) fun _ => True := by
  rw [equal?]
  split
  · exact yields_ok trivial
  · exact yields_tooDeep

mutual

/-- How many lists stand inside each other. -/
def nesting : Value → Nat
  | .list items => nestingOfItems items + 1
  | _ => 0

def nestingOfItems : List Value → Nat
  | [] => 0
  | v :: rest => max (nesting v) (nestingOfItems rest)

end

theorem nesting_le_nestingOfItems {items : List Value} {v : Value} (member : v ∈ items) :
    v.nesting ≤ nestingOfItems items := by
  induction items with
  | nil => cases member
  | cons w rest ih =>
    rw [nestingOfItems]
    rcases List.mem_cons.mp member with rfl | later
    · exact Nat.le_max_left _ _
    · exact Nat.le_trans (ih later) (Nat.le_max_right _ _)

/-- A list in so many others. -/
def nested : Nat → Value
  | 0 => .list []
  | n + 1 => .list [nested n]

theorem sound_nested (n : Nat) : (nested n).Sound name frames := by
  induction n with
  | zero => exact .list nofun
  | succ n ih => exact .list (by simpa using ih)

theorem nesting_nested (n : Nat) : (nested n).nesting = n + 1 := by
  induction n with
  | zero => rfl
  | succ n ih =>
    rw [nested, nesting, nestingOfItems, nestingOfItems, ih]
    rfl

theorem textDepth_nested (n : Nat) : (nested n).textDepth = n + 1 := by
  induction n with
  | zero => rfl
  | succ n ih =>
    rw [nested, textDepth, textDepthOfItems, textDepthOfItems, ih]
    rfl

theorem not_writable_nested : ¬ (nested depthLimit).Writable := by
  rw [Writable, textDepth_nested]
  decide

end Value

end SmallLisp
