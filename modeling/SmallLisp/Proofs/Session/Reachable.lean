import SmallLisp.Proofs.Evaluation.Closed
import SmallLisp.Proofs.Reader.Printed
import SmallLisp.Proofs.Session.Values

/-! The sessions that steps lead to, and what holds in all of them. Their frames form a forest,
which only grows, and nothing in them refers to a frame or a procedure that has not been made. How
deep the lists in them nest is not bounded. -/
namespace SmallLisp

theorem Value.Sound.of_occursIn {name : String → Prop} {frames : Nat} {v w : Value}
    (sound : v.Sound name frames) (inside : w.OccursIn v) : w.Sound name frames := by
  induction inside with
  | self => exact sound
  | item member _ ih => exact ih (sound.items _ member)
  | body _ ih =>
    cases sound with
    | proc _ _ body _ => exact ih body
  | part => cases sound

/-- The procedures that occur in the value captured frames of the first so many. -/
def Value.CapturesBelow (frames : Nat) (v : Value) : Prop :=
  ∀ id params body frame, (proc id params body frame).OccursIn v → frame < frames

theorem Value.Sound.capturesBelow {name : String → Prop} {frames : Nat} {v : Value}
    (sound : v.Sound name frames) : v.CapturesBelow frames := by
  intro id params body frame inside
  cases sound.of_occursIn inside with
  | proc _ _ _ known => exact known

section Kept

theorem after_adaptExcept {ε ε' σ α : Type} (f : ε → ε') (x : EStateM ε σ α) (s : σ) :
    after (x.adaptExcept f) s = after x s := by
  simp only [after, EStateM.adaptExcept]
  cases x s <;> rfl

variable {ε σ α β : Type} {machine : σ → Machine} {P : Machine → Prop}

/-- What holds of the machine in the state before a step holds of it afterwards. -/
def Kept (machine : σ → Machine) (P : Machine → Prop) (x : EStateM ε σ α) : Prop :=
  ∀ s, P (machine s) → P (machine (after x s))

theorem kept_pure (a : α) : Kept machine P (pure a : EStateM ε σ α) := fun _ holds => holds

theorem kept_throw (e : ε) : Kept machine P (throw e : EStateM ε σ α) := fun _ holds => holds

theorem kept_modify {change : σ → σ} (keeps : ∀ s, P (machine s) → P (machine (change s))) :
    Kept machine P (modify change : EStateM ε σ Unit) := keeps

theorem kept_get {next : σ → EStateM ε σ α} (each : ∀ s, Kept machine P (next s)) :
    Kept machine P (get >>= next) := fun s => each s s

theorem Kept.bind {x : EStateM ε σ α} {next : α → EStateM ε σ β} (first : Kept machine P x)
    (rest : ∀ a, Kept machine P (next a)) : Kept machine P (x >>= next) := by
  intro s holds
  have kept := first s holds
  change P (machine (after (EStateM.bind x next) s))
  rw [after] at kept ⊢
  rw [EStateM.bind]
  cases ended : x s with
  | ok a s' => rw [ended] at kept; exact rest a s' kept
  | error e s' => rw [ended] at kept; exact kept

end Kept

namespace Session

/-- Kept by the evaluation of any source text, and not about what has been reported. -/
structure Invariant (P : Machine → Prop) : Prop where
  evaluated : ∀ source, Kept id P (evaluateSource source Heap.root)
  reported : ∀ m printed events, P m → P { m with printed, events }

section

variable {P : Machine → Prop} (invariant : Invariant P)

include invariant

theorem kept_runLine (file : String) (number : Nat) (line : String) :
    Kept id P (runLine file number line) := by
  intro m holds
  have kept := invariant.evaluated line m holds
  rw [after] at kept ⊢
  rw [runLine]
  cases ended : evaluateSource line Heap.root m with
  | ok v m' => rw [ended] at kept; exact kept
  | error e m' =>
    rw [ended] at kept
    have reported (report : Event) : P (m'.keep report) := invariant.reported m' _ _ kept
    cases gravity : e.gravity with
    | nothing => simpa [gravity] using kept
    | unreadable => simpa [gravity] using reported _
    | failing => simpa [gravity] using reported _
    | fatal => simpa [gravity] using kept

theorem kept_runLines (file : String) (number : Nat) (lines : List Bytes) :
    Kept id P (runLines file number lines) := by
  induction lines generalizing number with
  | nil => exact kept_pure _
  | cons raw rest ih =>
    simp only [runLines]
    split
    · exact (kept_runLine invariant file number _).bind fun _ => ih (number + 1)
    · exact kept_modify fun m holds => invariant.reported m _ _ holds

omit invariant in
theorem kept_within {α : Type} {x : Running α} (kept : Kept id P x) :
    Kept machine P (within x) := by
  intro s holds
  have kept := kept s.machine holds
  rw [after] at kept ⊢
  rw [within]
  cases ended : x s.machine with
  | ok a m' => rw [ended] at kept; exact kept
  | error e m' => rw [ended] at kept; exact kept

theorem kept_log (e : Event) : Kept machine P (log e) :=
  kept_modify fun s holds => invariant.reported s.machine _ _ holds

omit invariant in
theorem kept_withFile {α : Type} (path : String) (use : Store → Except StoreFault α) :
    Kept machine P (withFile path use) := by
  simp only [withFile]
  split
  · exact kept_throw _
  · apply kept_get
    intro s
    cases use s.store with
    | ok a => exact kept_pure a
    | error fault => exact kept_throw _

omit invariant in
theorem kept_writeFile (path : String) (bytes : Bytes) :
    Kept machine P (writeFile path bytes) :=
  (kept_withFile path _).bind fun _ => kept_modify fun _ holds => holds

omit invariant in
theorem kept_supply (files : List (String × Bytes)) : Kept machine P (supply files) := by
  induction files with
  | nil => exact kept_pure _
  | cons file rest ih => exact (kept_writeFile file.1 file.2).bind fun _ => ih

theorem kept_runFile (path : String) : Kept machine P (runFile path) := by
  simp only [runFile, readFile]
  refine (kept_log invariant _).bind fun _ => ?_
  refine (kept_withFile _ _).bind fun bytes => ?_
  exact kept_within (kept_runLines invariant _ 1 _)

theorem kept_save (path : String) : Kept machine P (save path) := by
  simp only [save]
  apply kept_get
  intro s
  refine (kept_writeFile _ _).bind fun _ => ?_
  split
  · exact kept_log invariant _
  · exact kept_throw _

theorem kept_perform (step : Step) : Kept machine P (perform step) := by
  cases step with
  | run source => exact (kept_within (invariant.evaluated source)).bind fun v => kept_pure _
  | runFile path content =>
    refine (kept_supply _).bind fun _ => ?_
    exact (kept_runFile invariant path).bind fun _ => kept_pure _
  | save path =>
    refine (kept_save invariant path).bind fun _ => ?_
    exact (kept_withFile path _).bind fun bytes => kept_pure _

theorem Invariant.observe (step : Step) (s : Session) (holds : P s.machine) :
    P (Session.observe (perform step) s).session.machine := by
  have kept := kept_perform invariant step s holds
  rw [after] at kept
  rw [Session.observe]
  cases ended : perform step s with
  | ok a s' => rw [ended] at kept; exact invariant.reported s'.machine _ _ kept
  | error e s' => rw [ended] at kept; exact invariant.reported s'.machine _ _ kept

end

/-- Leads to in finitely many steps, whichever of them fail. -/
inductive Reaches (s : Session) : Session → Prop where
  | refl : Reaches s s
  | step {s' : Session} (step : Step) : Reaches s s' →
      Reaches s (observe (perform step) s').session

/-- What a new session leads to, at whatever level it logs. -/
def Reachable (s : Session) : Prop :=
  ∃ store level seed, Reaches ⟨{ Machine.initial with level, seed }, store⟩ s

variable {s s' : Session}

theorem invariant_closed : Invariant Machine.Closed where
  evaluated source m closed := by
    simp only [evaluateSource]
    cases made : read source with
    | error e => exact closed
    | ok expr =>
      -- what is read holds no procedures
      have knows : Machine.Knows m expr := fun id params body frame inside =>
        absurd ((sound_read made 0).capturesBelow _ _ _ _ inside) (Nat.not_lt_zero frame)
      have ended := Machine.Closed.evaluate closed knows.alike
      rw [id, after_adaptExcept]
      exact ended
  reported m printed events closed := closed.reported printed events

theorem Reaches.closed (reaches : Reaches s s') (closed : s.machine.Closed) :
    s'.machine.Closed := by
  induction reaches with
  | refl => exact closed
  | step step _ ih => exact invariant_closed.observe step _ ih

theorem Reachable.closed (reachable : s.Reachable) : s.machine.Closed := by
  obtain ⟨store, level, seed, reaches⟩ := reachable
  exact reaches.closed (Machine.closed_initial level seed)

theorem Reaches.machineExtends (reaches : Reaches s s') (ready : s.machine.Ready) :
    s.machine.Extends IsName s'.machine := by
  induction reaches with
  | refl => exact .refl ready.sound
  | step step _ ih => exact ih.trans (extends_observe (leads_perform (ih.ready ready) step)).1

/-- In every reachable session the frames form a tree below the root. An outer frame is older, so
the way outward from a frame is finite and ends at the root, and every search for a name along it
ends; no frame binds a name twice. The procedures that occur in what a frame binds or a step answers
have frames to run in. No later step removes a frame or gives it another outer frame. -/
theorem reachable_frames_form_tree (store : Store) (level : Level) (seed : Nat) {s s' : Session}
    (reached : Reaches ⟨{ Machine.initial with level, seed }, store⟩ s) (later : Reaches s s') :
    let h := s.machine.heap
    (∀ f g, h.outer? f = some g → g < f) ∧
    (∀ f < h.next, h.OuterChain f (h.chain f) ∧ (h.chain f).getLast? = some Heap.root) ∧
    (∀ f < h.next, ∀ n, h.Search n f (h.find? f n) ∧
      (h.contains f n = true ↔ ∃ g, h.Search n f (some g)) ∧
      h.get f n = ((h.find? f n).bind fun g => (h.bindings g).get? n).getD (.str n)) ∧
    (∀ f, (h.names f).Nodup) ∧
    (∀ f, ∀ d ∈ h.bindings f, d.2.CapturesBelow h.next) ∧
    (∀ step v, (observe (perform step) s).result = .ok (.value v) →
      v.CapturesBelow (observe (perform step) s).session.machine.heap.next) ∧
    h.next ≤ s'.machine.heap.next ∧ ∀ f < h.next, s'.machine.heap.outer? f = h.outer? f := by
  intro h
  have ready : s.machine.Ready :=
    (reached.machineExtends (Machine.ready_initial level seed)).ready
      (Machine.ready_initial level seed)
  have forest : h.Forest := (Reachable.closed ⟨store, level, seed, reached⟩).linked.left
  have grows := later.machineExtends ready
  refine ⟨forest.older, fun f known => ?_, fun f known n => ?_, fun f => ?_, fun f d bound => ?_,
    fun step v answered => ?_, grows.grows, grows.outer⟩
  · have way := Heap.outerChain_chain forest.older known
    exact ⟨way, way.getLast? forest known⟩
  · exact ⟨Heap.search_find? forest.older known n, Heap.contains_iff forest.older known n, h.get_eq_find? f n⟩
  · exact (ready.sound.bindings f).nodup
  · exact ((ready.sound.bindings f).values d bound).capturesBelow
  · obtain ⟨-, sound⟩ := extends_observe (leads_perform ready step)
    exact (sound _ answered v rfl).capturesBelow

/-- The frame of a `let` that a procedure has captured. It is frame 1 inside the root, and is so
still after a call of the procedure, in which frame 2 was made and the call failed. -/
theorem reachable_frames_form_tree_closure :
    let start : Session := ⟨{ Machine.initial with level := .debug, seed := 1 }, .empty⟩
    let source := "(define f (let ((x 1)) (lambda (y) (car x))))"
    let s := (observe (perform (.run source)) start).session
    let s' := (observe (perform (.run "(f 2)")) s).session
    Reaches start s ∧ Reaches s s' ∧ 1 < s.machine.heap.next ∧
    s.machine.heap.OuterChain 1 (s.machine.heap.chain 1) ∧ s.machine.heap.chain 1 = [1, Heap.root] ∧
    s.machine.heap.Search "f" 1 (some Heap.root) ∧ s'.machine.heap.outer? 1 = some Heap.root ∧
    s'.machine.heap.chain 2 = [2, 1, Heap.root] := by
  intro start source s s'
  have reached : Reaches start s := .step _ .refl
  have later : Reaches s s' := .step _ .refl
  obtain ⟨-, ways, searches, -, -, -, -, kept⟩ := reachable_frames_form_tree .empty .debug 1 reached later
  have known : 1 < s.machine.heap.next := by decide +kernel
  have found : s.machine.heap.find? 1 "f" = some Heap.root := by decide +kernel
  have outer : s.machine.heap.outer? 1 = some Heap.root := by decide +kernel
  exact ⟨reached, later, known, (ways 1 known).1, by decide +kernel,
    found ▸ (searches 1 known "f").1, (kept 1 known).trans outer, by decide +kernel⟩

/-- The text of an expression answers the value of the expression. -/
theorem perform_run_text {expr v : Value} {m : Machine}
    (readable : expr.Readable Pending.nestingLimit)
    (ended : Eval.evaluate expr Heap.root s.machine = .ok v m) :
    perform (.run expr.text) s = .ok (.value v) { s with machine := m } := by
  have ran : evaluateSource expr.text Heap.root s.machine = .ok v m := by
    simp only [evaluateSource, read_text readable, EStateM.adaptExcept, ended]
  have within : run expr.text s = .ok v { s with machine := m } := by
    simp only [run, within, ran]
  exact bind_eq within

theorem Reaches.run_text {start : Session} (reaches : Reaches start s) {expr v : Value}
    {m : Machine} (readable : expr.Readable Pending.nestingLimit)
    (ended : Eval.evaluate expr Heap.root s.machine = .ok v m) :
    Reaches start ⟨m.reported, s.store⟩ := by
  have reached := Reaches.step (.run expr.text) reaches
  rw [observe, perform_run_text readable ended] at reached
  exact reached

/-- The session that binds `x` to a list in so many others. -/
def ofNested (store : Store) (n : Nat) : Session :=
  ⟨{ Machine.initial with heap := Machine.initial.heap.define Heap.root "x" (.nested n) }, store⟩

/-- Lists can be nested as deep as one likes, by a snippet for each. -/
theorem reachable_ofNested (store : Store) (level : Level) (n : Nat) :
    ((ofNested store n).atLevel level).Reachable := by
  have define : Atom.Readable "define" := by decide +kernel
  have list : Atom.Readable "list" := by decide +kernel
  have x : Atom.Readable "x" := by decide +kernel
  have readable (args : List Value) (each : ∀ v ∈ args, v.Readable 998) :
      (Value.list [.symbol "define", .symbol "x", .list (.symbol "list" :: args)]).Readable
        Pending.nestingLimit := by
    have call : (Value.list (.symbol "list" :: args)).Readable 999 :=
      .list (List.forall_mem_cons.mpr ⟨.symbol list, each⟩)
    exact .list (by simpa using ⟨.symbol define, .symbol x, call⟩)
  refine ⟨store, level, 1, ?_⟩
  induction n with
  | zero => exact Reaches.refl.run_text (readable [] nofun) rfl
  | succ n ih => exact ih.run_text (readable [.symbol "x"] (by simpa using .symbol x)) rfl

end Session

end SmallLisp
