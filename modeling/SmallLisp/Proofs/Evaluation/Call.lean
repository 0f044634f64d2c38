import SmallLisp.Proofs.Evaluation.Effects
import SmallLisp.Proofs.Evaluation.Let

/-! A call of a named procedure with atoms. What comes of it depends on the procedure and the
atoms only: neither the frames that earlier calls have left nor those around the call are seen. -/
namespace SmallLisp

/-- Evaluates to itself and holds nothing else. -/
def Value.isAtom : Value → Bool
  | .int _ | .float _ | .str _ | .bool _ | .nil => true
  | _ => false

open Eval

section

variable {m : Machine} {v : Value} {args : List Value} {name : String}

theorem Machine.knows_atom (atom : v.isAtom) : m.Knows v := by
  intro id params body frame inside
  cases inside with
  | self => cases atom
  | item => cases atom
  | body => cases atom
  | part => cases atom

theorem step_atom (ev : Evaluator) (atom : v.isAtom) (f : FrameId) : step ev v f = pure v := by
  cases v <;> first | rfl | cases atom

theorem evaluateWithin_atom (limit : Nat) (atom : v.isAtom) (f g : FrameId) :
    evaluateWithin limit v f = evaluateWithin limit v g := by
  cases limit with
  | zero => rfl
  | succ limit => exact (step_atom _ atom f).trans (step_atom _ atom g).symm

theorem confined_atom (limit : Nat) (atom : v.isAtom) (f : FrameId) {changed : FrameId → Prop} :
    Confined changed (evaluateWithin limit v f) := by
  cases limit with
  | zero => exact confined_throw _
  | succ limit =>
    have same : evaluateWithin (limit + 1) v f = pure v := step_atom _ atom f
    rw [same]
    exact confined_pure v

theorem confined_atoms (limit : Nat) (atoms : ∀ v ∈ args, v.isAtom) (f : FrameId)
    {changed : FrameId → Prop} : Confined changed (evaluateAll (evaluateWithin limit) f args) := by
  induction args with
  | nil => exact confined_pure _
  | cons v rest ih =>
    obtain ⟨atom, others⟩ := List.forall_mem_cons.mp atoms
    apply (confined_atom limit atom f).bind
    intro w
    exact (ih others).bind fun vs => confined_pure _

theorem evaluateAll_atoms (limit : Nat) (atoms : ∀ v ∈ args, v.isAtom) (f g : FrameId) :
    evaluateAll (evaluateWithin limit) f args = evaluateAll (evaluateWithin limit) g args := by
  induction args with
  | nil => rfl
  | cons v rest ih =>
    obtain ⟨atom, others⟩ := List.forall_mem_cons.mp atoms
    rw [evaluateAll, evaluateAll, evaluateWithin_atom limit atom f g, ih others]

/-- `(name v ...)` -/
def callExpr (name : String) (args : List Value) : Value := .list (.symbol name :: args)

theorem Machine.knows_callExpr (atoms : ∀ v ∈ args, v.isAtom) : m.Knows (callExpr name args) :=
  Machine.knows_list (List.forall_mem_cons.mpr ⟨Machine.knows_symbol name,
    fun v member => Machine.knows_atom (atoms v member)⟩)

variable (procedure : Builtin.ofName? name = none)

include procedure

/-- The frame of a call matters for what the name means in it only. -/
theorem call_of_get_eq {f g : FrameId} (same : m.heap.get f name = m.heap.get g name)
    (atoms : ∀ v ∈ args, v.isAtom) (limit : Nat) :
    evaluateWithin limit (callExpr name args) f m =
      evaluateWithin limit (callExpr name args) g m := by
  cases limit with
  | zero => rfl
  | succ limit =>
    have resolved : resolve name f m = resolve name g m := by
      simp only [resolve]
      cases constants.lookup name with
      | some v => rfl
      | none => exact congrArg (EStateM.Result.ok · m) same
    change callName (evaluateWithin limit) f name args m =
      callName (evaluateWithin limit) g name args m
    simp only [callName, procedure]
    change EStateM.bind _ _ m = EStateM.bind _ _ m
    rw [EStateM.bind, EStateM.bind, resolved, evaluateAll_atoms limit atoms f g]

/-- Atoms define nothing and a call runs in a frame of its own. -/
theorem confined_callExpr (atoms : ∀ v ∈ args, v.isAtom) (limit : Nat) (f : FrameId) :
    Confined (fun _ => False) (evaluateWithin limit (callExpr name args) f) := by
  cases limit with
  | zero => exact confined_throw _
  | succ limit =>
    change Confined _ (callName (evaluateWithin limit) f name args)
    simp only [callName, procedure]
    apply (confined_resolve name f).bind
    intro v
    split
    · apply (confined_atoms limit atoms f).bind
      intro args
      exact Procedure.confined_apply (local_evaluateWithin limit) _ _ _ _ args
    · exact confined_throw _

theorem Machine.Closed.outgrows_call (closed : m.Closed) (atoms : ∀ v ∈ args, v.isAtom)
    (limit : Nat) :
    m.Outgrows (SmallLisp.after (evaluateWithin limit (callExpr name args) Heap.root) m) := by
  have paired := paired_evaluateWithin .identity limit (callExpr name args) _ _ _ m m closed.linked
    (Machine.knows_callExpr atoms).alike closed.paired_root
  obtain ⟨linked, grows⟩ := paired.after
  refine ⟨?_, linked.left, Nat.le_of_not_lt fun fewer => ?_⟩
  · exact ends_iff_after.mp (confined_callExpr procedure atoms limit Heap.root m)
  · -- else the next identity would be one that has been given
    have given := grows.2 _ _ (Numbering.pairs_identity.mpr ⟨fewer, rfl⟩)
    exact absurd (Numbering.pairs_identity.mp given).1 (Nat.lt_irrefl _)

/-- The call in a machine with more frames, in one of them that does not bind the name. -/
theorem seen_call_eq (closed : m.Closed) {m₁ : Machine} (more : m.Outgrows m₁)
    (printed : m.printed = m₁.printed) (level : m.level = m₁.level) (seed : m.seed = m₁.seed)
    (atoms : ∀ v ∈ args, v.isAtom) (limit : Nat) {f : FrameId}
    (same : m₁.heap.get f name = m₁.heap.get Heap.root name) :
    seen (evaluateWithin limit (callExpr name args) f m₁) =
      seen (evaluateWithin limit (callExpr name args) Heap.root m) := by
  have linked := closed.beside (Nat.le_refl _) more rfl printed level seed
  have root := (Renaming.frames_beside (Nat.le_refl m.procedures) more rfl).mpr ⟨closed.root, rfl⟩
  have paired := paired_evaluateWithin _ limit (callExpr name args) _ _ _ m m₁ linked
    ((Machine.knows_callExpr atoms).beside _ _ rfl) root
  rw [call_of_get_eq procedure same atoms limit]
  exact paired.seen_eq.symm

end

section

variable {m : Machine} {name : String} {args : List Value} {bindings : List (String × Value)}

theorem confined_bindEach (atoms : ∀ b ∈ bindings, b.2.isAtom) (limit : Nat) (f k : FrameId) :
    Confined (· = k)
      (Form.bindEach (evaluateWithin limit) f k (Form.bindingForms bindings)) := by
  induction bindings with
  | nil => exact confined_pure _
  | cons b rest ih =>
    obtain ⟨atom, others⟩ := List.forall_mem_cons.mp atoms
    apply (confined_atom limit atom f).bind
    intro v
    apply Confined.bind
    · apply confined_define
      rfl
    · exact fun _ => ih others

/-- Bindings to atoms, none of them of the name. -/
theorem bindEach_atoms (forest : m.heap.Forest) {k : FrameId} (known : k < m.heap.next)
    (each : ∀ b ∈ bindings, b.1 ≠ name ∧ b.2.isAtom) (limit : Nat) (f : FrameId)
    (unbound : (m.heap.bindings k).get? name = none) :
    ∃ heap : Heap,
      Form.bindEach (evaluateWithin (limit + 1)) f k (Form.bindingForms bindings) m =
        .ok () { m with heap } ∧
      heap.Forest ∧ heap.outer? k = m.heap.outer? k ∧ (heap.bindings k).get? name = none := by
  induction bindings generalizing m with
  | nil => exact ⟨m.heap, rfl, forest, rfl, unbound⟩
  | cons b rest ih =>
    obtain ⟨⟨other, atom⟩, others⟩ := List.forall_mem_cons.mp each
    have ran : evaluateWithin (limit + 1) b.2 f = pure b.2 := step_atom _ atom f
    have unbound₁ : ((m.heap.define k b.1 b.2).bindings k).get? name = none := by
      rw [Heap.define, Heap.bindings_update _ known, if_pos rfl, Bindings.get?_insert, if_neg other]
      exact unbound
    have known₁ : k < (m.heap.define k b.1 b.2).next := by
      simpa only [Heap.define, Heap.next_update] using known
    obtain ⟨heap, run, forest', outer, unbound'⟩ :=
      ih (m := { m with heap := m.heap.define k b.1 b.2 }) (forest.update k _) known₁ others
        unbound₁
    refine ⟨heap, ?_, forest', ?_, unbound'⟩
    · change (evaluateWithin (limit + 1) b.2 f >>= fun v => define k b.1 v >>= fun _ => _) m = _
      rw [ran]
      exact run
    · rw [outer, Heap.define, Heap.outer?_update]

theorem evaluateWithin_letExpr (limit : Nat) (body : Value) (f : FrameId) (m : Machine) :
    evaluateWithin (limit + 1) (Form.letExpr bindings body) f m =
      (do
        Form.bindEach (evaluateWithin limit) f m.heap.next (Form.bindingForms bindings)
        evaluateWithin limit body m.heap.next)
          { m with heap := m.heap.push ⟨[], some f⟩ } :=
  congrFun (Form.step_letExpr (evaluateWithin limit) bindings body f) m

variable (procedure : Builtin.ofName? name = none) (atoms : ∀ v ∈ args, v.isAtom)
  (each : ∀ b ∈ bindings, b.1 ≠ name ∧ b.2.isAtom)

include procedure atoms each

theorem confined_letExpr (limit : Nat) (f : FrameId) :
    Confined (fun _ => False)
      (evaluateWithin limit (Form.letExpr bindings (callExpr name args)) f) := by
  cases limit with
  | zero => exact confined_throw _
  | succ limit =>
    change Confined _ (step (evaluateWithin limit) _ f)
    rw [Form.step_letExpr]
    apply confined_newFrame_bind
    intro k
    have binds := confined_bindEach (fun b member => (each b member).2) limit f k
    apply (binds.mono fun g same => .inr same).bind
    intro _
    exact (confined_callExpr procedure atoms limit k).mono fun _ => False.elim

/-- A call sees nothing of a `let` around it that does not bind its name. -/
theorem seen_letExpr (closed : m.Closed) {limit : Nat}
    (shallow : ∀ m', evaluateWithin limit (Form.letExpr bindings (callExpr name args)) Heap.root m ≠
      .error .tooDeep m') :
    seen (evaluateWithin limit (Form.letExpr bindings (callExpr name args)) Heap.root m) =
      seen (evaluateWithin limit (callExpr name args) Heap.root m) := by
  match limit with
  | 0 => exact absurd rfl (shallow m)
  | 1 =>
    refine absurd ?_ (shallow { m with heap := m.heap.push ⟨[], some Heap.root⟩ })
    rw [evaluateWithin_letExpr]
    cases bindings <;> rfl
  | limit + 2 =>
    rw [evaluateWithin_letExpr] at shallow ⊢
    generalize framed : { m with heap := m.heap.push ⟨[], some Heap.root⟩ } = m₁ at shallow ⊢
    have next : m.heap.next < m₁.heap.next := by
      rw [← framed, Heap.next_push]
      exact Nat.lt_succ_self _
    have forest : m₁.heap.Forest := framed ▸ closed.linked.left.push [] closed.root
    have empty : m₁.heap.bindings m.heap.next = [] := by
      rw [← framed, Heap.bindings_push, if_pos rfl]
    have outside : m₁.heap.outer? m.heap.next = some Heap.root := by
      rw [← framed, Heap.outer?_push, if_pos rfl]
    obtain ⟨heap, run, forest', outer, unbound⟩ :=
      bindEach_atoms forest next each limit Heap.root (by rw [empty]; rfl)
    rw [bind_eq run] at shallow ⊢
    have more : m.Outgrows { m₁ with heap } := by
      have binds := confined_bindEach (fun b member => (each b member).2) (limit + 1) Heap.root
        m.heap.next
      have keeps := (binds.mono fun g same => Or.inr (a := False) same) m₁
      rw [Ends, run, ← framed] at keeps
      exact ⟨keeps.inNewest, forest', framed ▸ Nat.le_refl _⟩
    have same : heap.get m.heap.next name = heap.get Heap.root name := by
      rw [Heap.get, Heap.get, Heap.lookup?_of_outer? forest'.older (outer.trans outside), unbound]
      rfl
    have printed : m.printed = m₁.printed := framed ▸ rfl
    have level : m.level = m₁.level := framed ▸ rfl
    have seed : m.seed = m₁.seed := framed ▸ rfl
    have called := seen_call_eq procedure closed more printed level seed atoms (limit + 1) same
    rw [called]
    rcases deepens_succ (limit + 1) (callExpr name args) Heap.root m with ⟨m', deep⟩ | deeper
    · rw [deep] at called
      generalize evaluateWithin (limit + 1) _ _ _ = ended at shallow called
      cases ended with
      | ok v m₂ => cases called
      | error e m₂ =>
        obtain ⟨rfl, -⟩ : e = .tooDeep ∧ m₂.printed = m'.printed := by simpa [seen] using called
        exact absurd rfl (shallow m₂)
    · rw [deeper]

end

theorem root_kept {m : Machine} (known : Heap.root < m.heap.next) {x : Eval Value}
    (confined : Confined (fun _ => False) x) :
    (after x m).heap.bindings Heap.root = m.heap.bindings Heap.root := by
  have keeps := ends_iff_after.mp (confined m)
  rw [Heap.bindings, Heap.bindings, keeps.same Heap.root known not_false]

/-- What is seen of a call of a procedure by its name, with atoms, is seen again if it is repeated,
unless the call has moved the random seed, and is seen of the call inside a `let` that binds other
names to atoms, unless that runs too deep. None of these runs changes what the root binds. -/
theorem call_depends_on_procedure_and_arguments {s : Session} (reachable : s.Reachable)
    {name : String} (procedure : Builtin.ofName? name = none) {args : List Value}
    (atoms : ∀ v ∈ args, v.isAtom) (limit : Nat) :
    let call := evaluateWithin limit (callExpr name args) Heap.root
    let inLet := fun bindings =>
      evaluateWithin limit (Form.letExpr bindings (callExpr name args)) Heap.root
    let m := s.machine.reported
    let again := (after call m).reported
    let bound := s.machine.heap.bindings Heap.root
    ((after call m).seed = m.seed → seen (call again) = seen (call m)) ∧
    (after call m).heap.bindings Heap.root = bound ∧
    (after call again).heap.bindings Heap.root = bound ∧
    ∀ bindings : List (String × Value), (∀ b ∈ bindings, b.1 ≠ name ∧ b.2.isAtom) →
      ((∀ m', inLet bindings m ≠ .error .tooDeep m') → seen (inLet bindings m) = seen (call m)) ∧
      (after (inLet bindings) m).heap.bindings Heap.root = bound := by
  intro call inLet m again bound
  have closed : m.Closed := reachable.closed.reported "" #[]
  have more : m.Outgrows (after call m) := closed.outgrows_call procedure atoms limit
  have outgrown : m.Outgrows again := ⟨more.heap, more.forest, more.procedures⟩
  have kept : (after call m).heap.bindings Heap.root = bound :=
    root_kept closed.root (confined_callExpr procedure atoms limit Heap.root)
  have known : Heap.root < again.heap.next := Nat.lt_of_lt_of_le closed.root outgrown.heap.grows
  refine ⟨fun unmoved => ?_, kept, ?_, fun bindings each => ⟨fun shallow => ?_, ?_⟩⟩
  · have level : again.level = m.level :=
      keepsLevel_stepwise.evaluateWithin limit (callExpr name args) Heap.root m
    exact seen_call_eq procedure closed outgrown rfl level.symm unmoved.symm atoms limit rfl
  · exact (root_kept known (confined_callExpr procedure atoms limit Heap.root)).trans kept
  · exact seen_letExpr procedure atoms each closed shallow
  · exact root_kept closed.root (confined_letExpr procedure atoms each limit Heap.root)

/-- `(f 1)` after definitions of `z` as 10 and of `f` as `(lambda (x) (begin (print x) (+ x z)))`,
alone, once more, and inside `(let ((z 2) (x nil)) (f 1))`. -/
theorem call_depends_on_procedure_and_arguments_lexical :
    let start : Session := ⟨{ Machine.initial with seed := 1 }, .empty⟩
    let source := "(begin (define z 10) (define f (lambda (x) (begin (print x) (+ x z)))))"
    let s := (Session.observe (Session.perform (.run source)) start).session
    let call := evaluateWithin 9 (callExpr "f" [.int 1]) Heap.root
    let bindings : List (String × Value) := [("z", .int 2), ("x", .nil)]
    let inLet := evaluateWithin 9 (Form.letExpr bindings (callExpr "f" [.int 1])) Heap.root
    let m := s.machine.reported
    let again := (after call m).reported
    s.Reachable ∧ Builtin.ofName? "f" = none ∧ (after call m).seed = m.seed ∧
    (∀ b ∈ bindings, b.1 ≠ "f" ∧ b.2.isAtom) ∧
    seen (call m) = (.ok "11", "1\n") ∧ seen (call again) = (.ok "11", "1\n") ∧
    seen (inLet m) = (.ok "11", "1\n") ∧
    (after call m).heap.bindings Heap.root = s.machine.heap.bindings Heap.root ∧
    (after inLet m).heap.bindings Heap.root = s.machine.heap.bindings Heap.root := by
  intro start source s call bindings inLet m again
  have reachable : s.Reachable := ⟨.empty, .warning, 1, .step _ .refl⟩
  have procedure : Builtin.ofName? "f" = none := by decide +kernel
  have atoms : ∀ v ∈ [Value.int 1], v.isAtom := by decide
  have each : ∀ b ∈ bindings, b.1 ≠ "f" ∧ b.2.isAtom := by decide +kernel
  have ran : seen (call m) = (.ok "11", "1\n") ∧ (after call m).seed = m.seed := by decide +kernel
  have shown : seen (inLet m) = (.ok "11", "1\n") := by decide +kernel
  have shallow : ∀ m', inLet m ≠ .error .tooDeep m' := by
    intro m' deep
    rw [deep] at shown
    cases shown
  obtain ⟨repeated, kept, -, around⟩ :=
    call_depends_on_procedure_and_arguments reachable procedure atoms 9
  obtain ⟨same, kept'⟩ := around bindings each
  exact ⟨reachable, procedure, ran.2, each, ran.1, (repeated ran.2).trans ran.1,
    (same shallow).trans ran.1, kept, kept'⟩

end SmallLisp
