import SmallLisp.Proofs.Evaluation.Safety
import SmallLisp.Proofs.Reader.Names
import SmallLisp.Session.Step

/-! The values of a session. Whatever is run, read from a file or saved, and however it ends,
the heap stays sound, and no frame is lost. -/
namespace SmallLisp

/-- A machine that can go on: its heap is sound and has a root. -/
structure Machine.Ready (m : Machine) : Prop where
  sound : m.heap.Sound IsName
  root : Heap.root < m.heap.next

theorem Machine.Extends.ready {m m' : Machine} (extends' : m.Extends IsName m') (ready : m.Ready) :
    m'.Ready := ⟨extends'.sound, extends'.known ready.root⟩

theorem Machine.ready_initial (level : Level) (seed : Nat) :
    { Machine.initial with level, seed }.Ready :=
  ⟨Heap.sound_initial, Nat.zero_lt_one⟩

section

variable {ε σ α β : Type}

/-- Both ends leave a machine that the one before may lead to, and a result is as described.
The machine is a part of the state. -/
@[irreducible]
def Leads (machine : σ → Machine) (x : EStateM ε σ α) (s : σ) (done : α → Nat → Prop) : Prop :=
  Ends x s (fun a s' => (machine s).Extends IsName (machine s') ∧ done a (machine s').heap.next)
    fun _ s' => (machine s).Extends IsName (machine s')

variable {machine : σ → Machine} {s : σ} {x : EStateM ε σ α} {done : α → Nat → Prop}

theorem leads_pure (ready : (machine s).Ready) {a : α} (h : done a (machine s).heap.next) :
    Leads machine (pure a : EStateM ε σ α) s done := by
  simp only [Leads]
  exact ⟨.refl ready.sound, h⟩

theorem leads_throw (ready : (machine s).Ready) (e : ε) :
    Leads machine (throw e : EStateM ε σ α) s done := by
  simp only [Leads]
  exact Machine.Extends.refl ready.sound

/-- A change of the state elsewhere. -/
theorem leads_modify (ready : (machine s).Ready) {change : σ → σ}
    (same : (machine (change s)).heap = (machine s).heap) :
    Leads machine (modify change : EStateM ε σ Unit) s fun _ _ => True := by
  simp only [Leads]
  exact ⟨.of_heap_eq ready.sound same, trivial⟩

theorem leads_get {next : σ → EStateM ε σ α} (leads : Leads machine (next s) s done) :
    Leads machine (get >>= next) s done := by
  simp only [Leads] at leads ⊢
  exact leads

theorem Leads.bind {next : α → EStateM ε σ β} {done' : β → Nat → Prop}
    (leads : Leads machine x s done)
    (rest : ∀ a s', (machine s).Extends IsName (machine s') → done a (machine s').heap.next →
      Leads machine (next a) s' done') : Leads machine (x >>= next) s done' := by
  simp only [Leads] at leads rest ⊢
  apply Ends.bind leads
  rintro a s' ⟨first, result⟩
  apply (rest a s' first result).mono
  · exact fun _ _ ⟨second, result⟩ => ⟨first.trans second, result⟩
  · exact fun _ _ second => first.trans second

end

namespace Session

section Running

variable {m : Machine}

/-- What a snippet computes is sound, as all that it can read and all that it can find is. -/
theorem leads_evaluateSource (ready : m.Ready) (source : String) :
    Leads id (evaluateSource source Heap.root) m fun v frames => v.Sound IsName frames := by
  simp only [evaluateSource]
  split
  · exact leads_throw ready _
  · next expr made =>
    have value := sound_read made m.heap.next
    have safe := Eval.safe_evaluateWithin isName_of_quotedName? Eval.activationLimit expr Heap.root m
      ready.sound value ready.root
    simp only [Eval.SafeValue, Eval.Safe, Ends] at safe
    simp only [Leads, Ends, EStateM.adaptExcept, Eval.evaluate]
    cases ended : Eval.evaluateWithin Eval.activationLimit expr Heap.root m with
    | ok v m' => rw [ended] at safe; exact safe
    | error e m' => rw [ended] at safe; exact safe.1

theorem leads_runLine (ready : m.Ready) (file : String) (number : Nat) (line : String) :
    Leads id (runLine file number line) m fun _ _ => True := by
  have leads := leads_evaluateSource ready line
  simp only [Leads, Ends] at leads ⊢
  simp only [runLine]
  cases ended : evaluateSource line Heap.root m with
  | ok v m' => rw [ended] at leads; exact ⟨leads.1, trivial⟩
  | error e m' =>
    rw [ended] at leads
    have kept (report : Event) : m.Extends IsName (m'.keep report) :=
      leads.trans (.of_heap_eq leads.sound rfl)
    cases gravity : e.gravity with
    | nothing => simpa [gravity] using leads
    | unreadable => simpa [gravity] using kept _
    | failing => simpa [gravity] using kept _
    | fatal => simpa [gravity] using leads

theorem leads_runLines (ready : m.Ready) (file : String) (number : Nat) (lines : List Bytes) :
    Leads id (runLines file number lines) m fun _ _ => True := by
  induction lines generalizing m number with
  | nil => exact leads_pure ready trivial
  | cons raw rest ih =>
    simp only [runLines]
    split
    · apply (leads_runLine ready file number _).bind
      intro _ m' extends' _
      exact ih (extends'.ready ready) (number + 1)
    · exact leads_modify ready rfl

end Running

variable {α : Type} {s : Session}

theorem leads_within {x : Running α} {done : α → Nat → Prop} (leads : Leads id x s.machine done) :
    Leads machine (within x) s done := by
  simp only [Leads, Ends] at leads ⊢
  simp only [within]
  cases ended : x s.machine with
  | ok a m' => rw [ended] at leads; exact leads
  | error e m' => rw [ended] at leads; exact leads

theorem leads_log (ready : s.machine.Ready) (e : Event) :
    Leads machine (log e) s fun _ _ => True := leads_modify ready rfl

theorem leads_withFile (ready : s.machine.Ready) (path : String)
    (use : Store → Except StoreFault α) :
    Leads machine (withFile path use) s fun _ _ => True := by
  simp only [withFile]
  split
  · exact leads_throw ready _
  · apply leads_get
    cases use s.store with
    | ok a => exact leads_pure ready trivial
    | error fault => exact leads_throw ready _

theorem leads_readFile (ready : s.machine.Ready) (path : String) :
    Leads machine (readFile path) s fun _ _ => True := leads_withFile ready path _

theorem leads_writeFile (ready : s.machine.Ready) (path : String) (bytes : Bytes) :
    Leads machine (writeFile path bytes) s fun _ _ => True := by
  simp only [writeFile]
  apply (leads_withFile ready path _).bind
  intro store s' extends' _
  exact leads_modify (extends'.ready ready) rfl

theorem leads_supply (ready : s.machine.Ready) (files : List (String × Bytes)) :
    Leads machine (supply files) s fun _ _ => True := by
  induction files generalizing s with
  | nil => exact leads_pure ready trivial
  | cons file rest ih =>
    simp only [supply]
    apply (leads_writeFile ready file.1 file.2).bind
    intro _ s' extends' _
    exact ih (extends'.ready ready)

theorem leads_runFile (ready : s.machine.Ready) (path : String) :
    Leads machine (runFile path) s fun _ _ => True := by
  simp only [runFile]
  apply (leads_log ready _).bind
  intro _ s₁ first _
  apply (leads_readFile (first.ready ready) _).bind
  intro bytes s₂ second _
  exact leads_within (leads_runLines (second.ready (first.ready ready)) _ 1 _)

theorem leads_save (ready : s.machine.Ready) (path : String) :
    Leads machine (save path) s fun _ _ => True := by
  simp only [save]
  apply leads_get
  apply (leads_writeFile ready _ _).bind
  intro _ s' extends' _
  split
  · exact leads_log (extends'.ready ready) _
  · exact leads_throw (extends'.ready ready) _

/-- An answer that is a value is a sound one. -/
def Answer.Sound (answer : Answer) (frames : Nat) : Prop :=
  ∀ v, answer = .value v → v.Sound IsName frames

theorem leads_perform (ready : s.machine.Ready) (step : Step) :
    Leads machine (perform step) s Answer.Sound := by
  simp only [perform]
  cases step with
  | run source =>
    apply (leads_within (leads_evaluateSource ready source)).bind
    intro v s' extends' value
    apply leads_pure (extends'.ready ready)
    intro w same
    cases same
    exact value
  | runFile path content =>
    apply (leads_supply ready _).bind
    intro _ s₁ first _
    apply (leads_runFile (first.ready ready) path).bind
    intro _ s₂ second _
    exact leads_pure (second.ready (first.ready ready)) nofun
  | save path =>
    apply (leads_save ready path).bind
    intro _ s₁ first _
    apply (leads_readFile (first.ready ready) path).bind
    intro bytes s₂ second _
    exact leads_pure (second.ready (first.ready ready)) nofun

theorem extends_observe {x : Working Answer} (leads : Leads machine x s Answer.Sound) :
    let seen := observe x s
    s.machine.Extends IsName seen.session.machine ∧
      ∀ answer, seen.result = .ok answer → answer.Sound seen.session.machine.heap.next := by
  unfold Leads Ends at leads
  unfold observe
  cases ended : x s with
  | ok a s' =>
    rw [ended] at leads
    refine ⟨leads.1.trans (.of_heap_eq leads.1.sound rfl), ?_⟩
    intro answer same
    cases same
    exact leads.2
  | error e s' =>
    rw [ended] at leads
    exact ⟨leads.trans (.of_heap_eq leads.sound rfl), nofun⟩

/-- Each step leads on from where the one before ended. -/
theorem extends_performAll (ready : s.machine.Ready) (steps : List Step) :
    ∀ seen ∈ performAll s steps, s.machine.Extends IsName seen.session.machine ∧
      ∀ answer, seen.result = .ok answer → answer.Sound seen.session.machine.heap.next := by
  induction steps generalizing s with
  | nil => nofun
  | cons step rest ih =>
    obtain ⟨first, answered⟩ := extends_observe (leads_perform ready step)
    intro seen member
    rcases List.mem_cons.mp member with rfl | later
    · exact ⟨first, answered⟩
    · obtain ⟨second, answered'⟩ := ih (first.ready ready) seen later
      exact ⟨first.trans second, answered'⟩

/-- Whatever steps a new session takes, at whatever level it logs, and whichever of them fail, after each one every frame
binds names, and binds them to sound values, and a value that is answered is sound. Sound
values hold their integers in 64 bits, give their procedures parameters that calls can bind,
and call their symbols and parameters by names, however deep these are inside them. -/
theorem performAll_values_sound (store : Store) (level : Level) (seed : Nat) (steps : List Step) :
    ∀ seen ∈ performAll ⟨{ Machine.initial with level, seed }, store⟩ steps,
      (∀ f, ∀ d ∈ seen.session.machine.heap.bindings f,
        IsName d.1 ∧ d.2.Sound IsName seen.session.machine.heap.next) ∧
      ∀ v, seen.result = .ok (.value v) → v.Sound IsName seen.session.machine.heap.next := by
  intro seen member
  obtain ⟨extends', answered⟩ := extends_performAll (Machine.ready_initial level seed) steps seen member
  refine ⟨fun f d bound => ?_, fun v same => answered _ same v rfl⟩
  have bindings := extends'.sound.bindings f
  exact ⟨bindings.keys d bound, bindings.values d bound⟩

/-- A procedure that captures the greatest integer. The first call would go beyond it and fails,
the second one does not, and what the quote stands before is a name. -/
theorem performAll_values_sound_closure :
    let steps : List Step :=
      [.run "(define f (let ((x 9223372036854775807)) (lambda (y . r) (cons (+ x y) r))))",
        .run "(f 1 'z)", .run "(f -1 'z)"]
    let seen := performAll ⟨{ Machine.initial with level := .debug, seed := 1 }, .empty⟩ steps
    ∃ last ∈ seen, seen.getLast? = some last ∧
      (∀ f, ∀ d ∈ last.session.machine.heap.bindings f,
        IsName d.1 ∧ d.2.Sound IsName last.session.machine.heap.next) ∧
      (∀ v, last.result = .ok (.value v) → v.Sound IsName last.session.machine.heap.next) ∧
      (match last.result with
        | .ok (.value v) => v.text
        | _ => "") = "(9223372036854775806 z)" := by
  intro steps seen
  have found : ∃ last, seen.getLast? = some last := ⟨_, rfl⟩
  obtain ⟨last, same⟩ := found
  have member := List.mem_of_getLast? same
  obtain ⟨bindings, answered⟩ := performAll_values_sound .empty .debug 1 steps last member
  refine ⟨last, member, same, bindings, answered, ?_⟩
  have shown : seen.getLast?.map (fun last => match last.result with
      | .ok (.value v) => v.text
      | _ => "") = some "(9223372036854775806 z)" := by decide +kernel
  rw [same] at shown
  exact Option.some.inj shown

end Session

end SmallLisp
