import SmallLisp.Proofs.Evaluation.Arguments
import SmallLisp.Proofs.Evaluation.Depth
import SmallLisp.Proofs.Session.Reachable

/-! A `let` is a `lambda` that is applied at once. The two make their frames at different times:
`let` before the operands are evaluated, the call after. Up to then the frame of `let` stands for
none, and from then on it stands for the frame of the call. -/
namespace SmallLisp

namespace Form

/-- `(x e) ...` -/
def bindingForms (bindings : List (String × Value)) : List Value :=
  bindings.map fun b => .list [.symbol b.1, b.2]

/-- `(let ((x e) ...) body)` -/
def letExpr (bindings : List (String × Value)) (body : Value) : Value :=
  .list [.symbol letIn.name, .list (bindingForms bindings), body]

theorem step_letExpr (ev : Evaluator) (bindings : List (String × Value)) (body : Value)
    (f : FrameId) :
    Eval.step ev (letExpr bindings body) f = runLet ev f (.list (bindingForms bindings)) body := by
  have found : Builtin.ofName? letIn.name = some (.form .letIn) := by decide +kernel
  simp only [Eval.step, letExpr, Eval.call, Eval.callName, found]
  rfl

end Form

namespace Procedure

variable {params : List String} {args : List Value}

/-- `(lambda (x ...) body)` -/
def lambdaExpr (params : List String) (body : Value) : Value :=
  .list [.symbol lambdaName, .list (params.map .symbol), body]

/-- `((lambda (x ...) body) e ...)` -/
def lambdaCall (bindings : List (String × Value)) (body : Value) : Value :=
  .list (lambdaExpr (bindings.map Prod.fst) body :: bindings.map Prod.snd)

theorem paramNames_symbols (params : List String) :
    paramNames (params.map .symbol) = .ok params := by
  induction params with
  | nil => rfl
  | cons p rest ih =>
    rw [List.map_cons, paramNames, ih]
    rfl

/-- Without the marker each parameter binds the argument in its place. -/
theorem bind_plain (name : String) (plain : restMarker ∉ params)
    (count : args.length = params.length) :
    bind name params args = .ok (.ofDefinitions (params.zip args)) := by
  have fits : Fits params args := ⟨fun _ => count, fun present => absurd present plain⟩
  have paired : (places params).zip (given params args) = params.zip args := by
    have zipped : (params ++ []).zip (args ++ [Value.list (args.drop args.length)]) = _ :=
      List.zip_append count.symm
    rw [places, List.erase_of_not_mem plain, given, fixedCount_eq_length plain, ← count,
      List.take_length]
    simpa using zipped
  rw [bind_of_fits name (fun present => absurd present plain) fits, bound, paired]

/-- The form makes a procedure, if only the marker is where it may be. -/
theorem step_lambdaExpr_placed (ev : Evaluator) (placed : wellPlaced params = true) (body : Value)
    (f : FrameId) :
    Eval.step ev (lambdaExpr params body) f = Eval.newProcedure params body f := by
  have found : Builtin.ofName? lambdaName = some (.form .lambda) := by decide +kernel
  have made : make (.list (params.map .symbol)) body f = Eval.newProcedure params body f := by
    simp only [make, paramNames_symbols]
    change (if wellPlaced params = true then _ else _) = _
    rw [if_pos placed]
  simp only [Eval.step, lambdaExpr, Eval.call, Eval.callName, found]
  exact made

theorem step_lambdaExpr (ev : Evaluator) (plain : restMarker ∉ params) (body : Value)
    (f : FrameId) :
    Eval.step ev (lambdaExpr params body) f = Eval.newProcedure params body f :=
  step_lambdaExpr_placed ev ((wellPlaced_iff params).mpr fun member => absurd member plain) body f

/-- Makes the procedure, and then calls it, where there is room to report it. -/
theorem evaluateWithin_lambdaCall {bindings : List (String × Value)}
    (plain : restMarker ∉ bindings.map Prod.fst) {limit : Nat} {body : Value} {f : FrameId}
    {m : Machine}
    (shallow : ∀ m', Eval.evaluateWithin (limit + 2) (lambdaCall bindings body) f m ≠
      .error .tooDeep m') : ∃ events,
      Eval.evaluateWithin (limit + 2) (lambdaCall bindings body) f m =
        (do apply (Eval.evaluateWithin limit) anonymous (bindings.map Prod.fst) body f
              (← Eval.evaluateAll (Eval.evaluateWithin limit) f (bindings.map Prod.snd)))
          { m with procedures := m.procedures + 1, events } := by
  have made := step_lambdaExpr (Eval.evaluateWithin limit) plain body f
  let head := lambdaExpr (bindings.map Prod.fst) body
  have called : Eval.evaluateWithin (limit + 2) (lambdaCall bindings body) f =
      (do let operator ← Eval.step (Eval.evaluateWithin limit) head f
          Eval.log (.operatorEvaluated head operator)
          Eval.evaluateWithin (limit + 1) (.list (operator :: bindings.map Prod.snd)) f) := rfl
  rw [called, made] at shallow ⊢
  let operator := Value.proc m.procedures (bindings.map Prod.fst) body f
  let m₁ := { m with procedures := m.procedures + 1 }
  have ran : Eval.newProcedure (bindings.map Prod.fst) body f m = .ok operator m₁ := rfl
  rw [bind_eq ran] at shallow ⊢
  rcases log_eq (.operatorEvaluated head operator) m₁ with noRoom | kept
  · exact absurd (bind_eq_error noRoom) (shallow m₁)
  · rw [bind_eq kept]
    exact ⟨_, rfl⟩

theorem apply_of_bind {name : String} {bound : Bindings} (binds : bind name params args = .ok bound)
    {ev : Evaluator} {body : Value} {captured : FrameId} {m : Machine}
    (shallow : ∀ m', apply ev name params body captured args m ≠ .error .tooDeep m') : ∃ events,
      apply ev name params body captured args m =
        ev body m.heap.next { m with heap := m.heap.push ⟨bound, some captured⟩, events } := by
  rw [apply] at shallow ⊢
  rcases log_eq (.calling name args) m with noRoom | kept
  · exact absurd (bind_eq_error noRoom) (shallow m)
  · rw [bind_eq kept]
    simp only [extend, binds]
    exact ⟨_, rfl⟩

end Procedure

open Eval

section

variable {r : Renaming} {ev : Evaluator} {m m' : Machine} {f k : FrameId}

/-- A definition in a frame that stands for none. -/
theorem Linked.define_stray (linked : Linked r m m') (known : k < m'.heap.next)
    (stray : ∀ count i, ¬ r.frames.Pairs count i k) (n : String) (v : Value) :
    Linked r m { m' with heap := m'.heap.define k n v } := by
  refine ⟨linked.heap.update_stray (fun i => stray _ i) known _, linked.left,
    linked.right.update k _, ?_, linked.procedures, linked.printed, linked.level, linked.seed⟩
  simpa only [Heap.define, Heap.next_update] using linked.frames

/-- The operands of a call beside the bindings of a `let`, whose frame `k` stands for none. They
have alike values, and `k` binds those of the `let` in the end. -/
theorem paired_operands (paired : PairedEvaluator r ev ev) (isLocal : Local ev)
    (linked : Linked r m m') (same : (r.at m).frames f f)
    (stray : ∀ count i, ¬ r.frames.Pairs count i k) {frame : Frame}
    (inside : m'.heap.frames[k]? = some frame) {bindings : List (String × Value)}
    (alike : ∀ b ∈ bindings, b.2.Alike (r.at m) b.2) :
    Paired r (evaluateAll ev f (bindings.map Prod.snd))
      (Form.bindEach ev f k (Form.bindingForms bindings)) m m' fun args _ m₁ m₁' =>
        ∃ args', Value.AlikeAll (r.at m₁) args args' ∧ args.length = bindings.length ∧
          m₁'.heap.frames[k]? = some { frame with
            bindings := ((bindings.map Prod.fst).zip args').foldl
              (fun b d => b.insert d.1 d.2) frame.bindings } := by
  induction bindings generalizing m m' frame with
  | nil => exact paired_pure linked ⟨[], .nil, rfl, inside⟩
  | cons b rest ih =>
    have apart : k ≠ f := by
      rintro rfl
      exact stray _ _ same
    have operand := paired b.2 b.2 f f m m' linked (alike b (by simp)) same
    apply (operand.and_right (isLocal b.2 f m')).bind
    rintro v w m₁ m₁' linked₁ grows ⟨value, keeps⟩
    -- the operand has left the frame of the `let` as it was
    have kept : m₁'.heap.frames[k]? = some frame :=
      (keeps.same k (Heap.lt_next_of_frame inside) apart).trans inside
    have defined := linked₁.define_stray (Heap.lt_next_of_frame kept) stray b.1 w
    have others := ih defined (grows.1 _ _ same) (Heap.frames_update_same kept _)
      fun b' member => (alike b' (by simp [member])).mono grows
    unfold Paired
    rw [bind_eq (z := define k b.1 w) (m := m₁') rfl]
    apply others.map (v :: ·)
    rintro vs _ m₂ m₂' grows₂ ⟨args', values, count, bound⟩
    exact ⟨w :: args', .cons (value.mono grows₂) values, congrArg Nat.succ count, bound⟩

/-- The frame of a call that begins, for one on the right that stood for none. -/
theorem Linked.adopt (linked : Linked r m m') (stray : ∀ i, ¬ r.frames.Pairs m.heap.next i k)
    {frame : Frame} {b : Bindings} {g : FrameId} (inside : m'.heap.frames[k]? = some frame)
    (bindings : b.Alike (r.at m) frame.bindings) (same : (r.at m).frames f g)
    (outside : frame.outer = some g) (events : Array Event) :
    let r' : Renaming :=
      ⟨r.frames.adopt linked.frames (Heap.lt_next_of_frame inside) stray, r.procedures⟩
    let m₁ := { m with heap := m.heap.push ⟨b, some f⟩, events }
    Linked r' m₁ m' ∧ r.at m ≤ r'.at m₁ ∧ (r'.at m₁).frames m.heap.next k := by
  intro r' m₁
  have pairs (i j : FrameId) : (r'.at m₁).frames i j ↔
      (r.at m).frames i j ∨ i = m.heap.next ∧ j = k := by
    simp only [Renaming.at, m₁, Heap.next_push]
    exact Numbering.pairs_left
  have grows : r.at m ≤ r'.at m₁ := ⟨fun i j old => (pairs i j).mpr (.inl old), fun _ _ => id⟩
  have bound : m'.heap.bindings k = frame.bindings := by rw [Heap.bindings, inside]
  have outer : m'.heap.outer? k = some g := by rw [Heap.outer?, inside]; exact outside
  have heap := linked.heap.pushLeft grows (fun i j => (pairs i j).mp) (Heap.lt_next_of_frame inside)
    (bound ▸ bindings) same outer
  refine ⟨⟨heap, linked.left.push b (linked.heap.known f g same).1, linked.right, ?_,
    linked.procedures, linked.printed, linked.level, linked.seed⟩, grows, (pairs _ _).mpr (.inr ⟨rfl, rfl⟩)⟩
  simp only [m₁, Heap.next_push]
  exact Numbering.counts_left

end

section

/-- Machines that two runs from `m` have led to, the same but for the numbers of the frames and
procedures made since. The first procedure that was made on the left and the frames that are left
out on the right stand for none, so nothing in the others leads to them. -/
structure Machine.Corresponds (m : Machine) (μ : Matching) (out : FrameId → Prop)
    (m₁ m₂ : Machine) : Prop where
  oneToOne : μ.OneToOne
  oldFrames : ∀ f < m.heap.next, μ.frames f f
  oldProcedures : ∀ i < m.procedures, μ.procedures i i
  frames : Covers μ.frames m₁.heap.next m₂.heap.next (fun _ => False) out
  procedures : Covers μ.procedures m₁.procedures m₂.procedures (· = m.procedures) fun _ => False
  heap : m₁.heap.Alike μ m₂.heap
  printed : m₁.printed = m₂.printed

/-- Ends of two runs from `m` with alike values or the same failure. If they fail early, the first
frame that was made on the right is left out. -/
inductive SameEnd (m : Machine) : EStateM.Result EvalError Machine Value →
    EStateM.Result EvalError Machine Value → Prop where
  | value {μ : Matching} {v w : Value} {m₁ m₂ : Machine} : v.Alike μ w →
      m.Corresponds μ (fun _ => False) m₁ m₂ → SameEnd m (.ok v m₁) (.ok w m₂)
  | failure {μ : Matching} {m₁ m₂ : Machine} (e : EvalError) :
      m.Corresponds μ (fun _ => False) m₁ m₂ → SameEnd m (.error e m₁) (.error e m₂)
  | early {μ : Matching} {m₁ m₂ : Machine} (e : EvalError) :
      m.Corresponds μ (· = m.heap.next) m₁ m₂ → SameEnd m (.error e m₁) (.error e m₂)

variable {m m₁ m₂ : Machine} {r : Renaming} {out : FrameId → Prop}

theorem Linked.corresponds (linked : Linked r m₁ m₂) (kept : Renaming.identity.at m ≤ r.at m₁)
    (frames : r.frames.Complete (fun _ => False) out)
    (procedures : r.procedures.Complete (· = m.procedures) fun _ => False) :
    m.Corresponds (r.at m₁) out m₁ m₂ where
  oneToOne := r.oneToOne m₁
  oldFrames f known := kept.1 f f (Numbering.pairs_identity.mpr ⟨known, rfl⟩)
  oldProcedures i made := kept.2 i i (Numbering.pairs_identity.mpr ⟨made, rfl⟩)
  frames := frames.pairs linked.frames
  procedures := procedures.pairs linked.procedures
  heap := linked.heap
  printed := linked.printed

/-- The call of a procedure beside its body in a frame that binds what the call binds. -/
theorem sameEnd_apply (linked : Linked r m₁ m₂) (kept : Renaming.identity.at m ≤ r.at m₁)
    {k : FrameId} (frames : r.frames.Complete (fun _ => False) (· = k))
    (procedures : r.procedures.Complete (· = m.procedures) fun _ => False)
    (stray : ∀ i, ¬ r.frames.Pairs m₁.heap.next i k) {f : FrameId} (same : (r.at m₁).frames f f)
    {params : List String} {args args' : List Value} (plain : restMarker ∉ params)
    (count : args.length = params.length) (values : Value.AlikeAll (r.at m₁) args args')
    (inside : m₂.heap.frames[k]? = some ⟨.ofDefinitions (params.zip args'), some f⟩)
    {body : Value} (alike : body.Alike (r.at m₁) body) {name : String} {limit : Nat}
    (shallow : ∀ m', Procedure.apply (evaluateWithin limit) name params body f args m₁ ≠
      .error .tooDeep m') :
    SameEnd m (Procedure.apply (evaluateWithin limit) name params body f args m₁)
      (evaluateWithin limit body k m₂) := by
  have binds := Procedure.bind_plain name plain count
  obtain ⟨events, applied⟩ := Procedure.apply_of_bind binds shallow
  obtain ⟨adopted, grows, frame⟩ := linked.adopt stray inside
    (Bindings.alike_ofDefinitions (Bindings.alike_zip values)) same rfl events
  have frames := frames.adopt linked.frames (Heap.lt_next_of_frame inside) stray
  have ended := paired_evaluateWithin _ limit body body _ _ _ _ adopted (alike.mono grows) frame
  rw [applied]
  unfold PairedValue Paired at ended
  generalize evaluateWithin limit body k m₂ = run, evaluateWithin limit body _ _ = called at ended ⊢
  have kept := Matching.le_trans kept grows
  cases ended with
  | ok linked₁ grows₁ value =>
    exact .value value (linked₁.corresponds (Matching.le_trans kept grows₁) frames procedures)
  | error e linked₁ grows₁ =>
    exact .failure e (linked₁.corresponds (Matching.le_trans kept grows₁) frames procedures)

variable (left : m.procedures ≤ m₁.procedures) (right : m.Outgrows m₂)

/-- With one frame more on the right, that one is left out. -/
theorem Renaming.frames_complete (next : m₂.heap.next = m.heap.next + 1) :
    (beside left right).frames.Complete (fun _ => False) (· = m.heap.next) := by
  refine (Numbering.complete_shared (Nat.le_refl _) right.heap.grows).mono ?_ ?_
  · exact fun f known new => Nat.not_le_of_lt known new
  · exact fun f known new => Nat.le_antisymm (Nat.le_of_lt_succ (Nat.lt_of_lt_of_eq known next)) new

/-- With one procedure more on the left, that one is left out. -/
theorem Renaming.procedures_complete (count : m₁.procedures = m.procedures + 1)
    (count' : m₂.procedures = m.procedures) :
    (beside left right).procedures.Complete (· = m.procedures) fun _ => False := by
  refine (Numbering.complete_shared left right.procedures).mono ?_ ?_
  · exact fun i made new => Nat.le_antisymm (Nat.le_of_lt_succ (Nat.lt_of_lt_of_eq made count)) new
  · exact fun i made new => Nat.not_le_of_lt (Nat.lt_of_lt_of_eq made count') new

theorem Renaming.stray_beside (known : m.heap.next < m₂.heap.next) (count : Nat) (i : FrameId) :
    ¬ (beside left right).frames.Pairs count i m.heap.next :=
  Numbering.not_pairs_shared (Nat.le_refl _) right.heap.grows (Nat.le_refl _) known

/-- The call, once its procedure has been made, beside the `let`, once its frame has. -/
theorem sameEnd_runLet (closed : m.Closed) {f : FrameId} (known : f < m.heap.next)
    {bindings : List (String × Value)} {body : Value} (plain : restMarker ∉ bindings.map Prod.fst)
    (operands : ∀ b ∈ bindings, m.Knows b.2) (inside : m.Knows body) {limit : Nat}
    (shallow : ∀ m', evaluateWithin (limit + 2) (Procedure.lambdaCall bindings body) f m ≠
      .error .tooDeep m') :
    SameEnd m (evaluateWithin (limit + 2) (Procedure.lambdaCall bindings body) f m)
      (Form.runLet (evaluateWithin limit) f (.list (Form.bindingForms bindings)) body m) := by
  obtain ⟨events, called⟩ := Procedure.evaluateWithin_lambdaCall plain shallow
  generalize made : { m with procedures := m.procedures + 1, events } = m₁ at called
  generalize framed : { m with heap := m.heap.push ⟨[], some f⟩ } = m₂
  have opened : Form.runLet (evaluateWithin limit) f (.list (Form.bindingForms bindings)) body m =
      (do Form.bindEach (evaluateWithin limit) f m.heap.next (Form.bindingForms bindings)
          evaluateWithin limit body m.heap.next) m₂ := framed ▸ rfl
  have left : m.procedures ≤ m₁.procedures := made ▸ Nat.le_succ _
  have right : m.Outgrows m₂ := framed ▸ closed.outgrows_newFrame [] known
  have heap : m₁.heap = m.heap := made ▸ rfl
  have next : m₂.heap.next = m.heap.next + 1 := framed ▸ Heap.next_push _ _
  have frame : m₂.heap.frames[m.heap.next]? = some ⟨[], some f⟩ := by
    rw [← framed, Heap.frames_push, if_pos rfl]
  have linked := closed.beside left right heap (by rw [← made, ← framed]) (by rw [← made, ← framed])
    (by rw [← made, ← framed])
  have kept := Renaming.identity_le_beside left right heap
  have same := (Renaming.frames_beside left right heap).mpr ⟨known, rfl⟩
  have frames := Renaming.frames_complete left right next
  have procedures := Renaming.procedures_complete left right (made ▸ rfl) (framed ▸ rfl)
  -- the frame of the `let` stands for none as long as the operands run
  have stray := Renaming.stray_beside left right (next ▸ Nat.lt_succ_self _)
  have ended := paired_operands (paired_evaluateWithin _ limit) (local_evaluateWithin limit) linked
    same stray frame fun b member => (operands b member).beside left right heap
  rw [called] at shallow
  rw [called, opened]
  change ∀ m', EStateM.bind _ _ _ ≠ _ at shallow
  change SameEnd m (EStateM.bind _ _ _) (EStateM.bind _ _ _)
  rw [EStateM.bind] at shallow
  rw [EStateM.bind, EStateM.bind]
  unfold Paired at ended
  generalize evaluateAll _ _ _ _ = ended₁, Form.bindEach _ _ _ _ _ = ended₂ at ended shallow ⊢
  cases ended with
  | error e linked₁ grows =>
    exact .early e (linked₁.corresponds (Matching.le_trans kept grows) frames procedures)
  | ok linked₁ grows result =>
    obtain ⟨args', values, count, bound⟩ := result
    exact sameEnd_apply linked₁ (Matching.le_trans kept grows) frames procedures (stray _)
      (grows.1 _ _ same) plain (count.trans (by simp)) values bound
      ((inside.beside left right heap).mono grows) shallow

theorem SameEnd.seen_eq {ended ended' : EStateM.Result EvalError Machine Value}
    (same : SameEnd m ended ended') : seen ended = seen ended' := by
  cases same with
  | value alike corresponds => rw [seen, seen, alike.text_eq, corresponds.printed]
  | failure e corresponds => rw [seen, seen, corresponds.printed]
  | early e corresponds => rw [seen, seen, corresponds.printed]

theorem SameEnd.names_eq {x y : Eval Value} (same : SameEnd m (x m) (y m)) {f : FrameId}
    (known : f < m.heap.next) : (after x m).heap.names f = (after y m).heap.names f := by
  rw [after, after]
  generalize x m = ended, y m = ended' at same ⊢
  cases same with
  | value _ corresponds => exact corresponds.heap.names_eq (corresponds.oldFrames f known)
  | failure _ corresponds => exact corresponds.heap.names_eq (corresponds.oldFrames f known)
  | early _ corresponds => exact corresponds.heap.names_eq (corresponds.oldFrames f known)

/-- A `let` needs fewer activations than the call. -/
theorem sameEnd_letExpr (closed : m.Closed) {f : FrameId} (known : f < m.heap.next)
    {bindings : List (String × Value)} {body : Value} (plain : restMarker ∉ bindings.map Prod.fst)
    (operands : ∀ b ∈ bindings, m.Knows b.2) (inside : m.Knows body) {limit : Nat}
    (shallow : ∀ m', evaluateWithin limit (Procedure.lambdaCall bindings body) f m ≠
      .error .tooDeep m') :
    SameEnd m (evaluateWithin limit (Procedure.lambdaCall bindings body) f m)
      (evaluateWithin limit (Form.letExpr bindings body) f m) := by
  match limit with
  | 0 => exact absurd rfl (shallow m)
  | 1 => exact absurd rfl (shallow m)
  | limit + 2 =>
    have same := sameEnd_runLet closed known plain operands inside shallow
    have unfolded : evaluateWithin (limit + 2) (Form.letExpr bindings body) f =
        Form.runLet (evaluateWithin (limit + 1)) f (.list (Form.bindingForms bindings)) body :=
      Form.step_letExpr _ bindings body f
    rw [unfolded]
    have deepens := Form.congruence_runLet congruence_deepens (deepens_succ limit) f
    rcases deepens (.list (Form.bindingForms bindings)) body m with ⟨m', deep⟩ | deeper
    · rw [deep] at same
      generalize ended : evaluateWithin _ (Procedure.lambdaCall bindings body) f m = called at same
      cases same with
      | failure => exact absurd ended (shallow _)
      | early => exact absurd ended (shallow _)
    · rw [deeper]
      exact same

/-- A `let` ends as the `lambda` of its names and its body does when it is called with its
expressions: with the same text or the same failure, the same printed text, the same names in the
frame that it is evaluated in, and everything else the same but for the numbers of the frames and
procedures that were made. -/
theorem let_ends_as_lambda_call {s : Session} (reachable : s.Reachable) {f : FrameId}
    (known : f < s.machine.heap.next) {bindings : List (String × Value)} {body : Value}
    (plain : ∀ b ∈ bindings, b.1 ≠ restMarker) (operands : ∀ b ∈ bindings, s.machine.Knows b.2)
    (inside : s.machine.Knows body) (limit : Nat)
    (shallow : ∀ m, evaluateWithin limit (Procedure.lambdaCall bindings body) f s.machine ≠
      .error .tooDeep m) :
    let call := evaluateWithin limit (Procedure.lambdaCall bindings body) f
    let form := evaluateWithin limit (Form.letExpr bindings body) f
    seen (call s.machine) = seen (form s.machine) ∧
    (after call s.machine).heap.names f = (after form s.machine).heap.names f ∧
    SameEnd s.machine (call s.machine) (form s.machine) := by
  intro call form
  have unmarked : restMarker ∉ bindings.map Prod.fst := by
    rw [List.mem_map]
    rintro ⟨b, member, marked⟩
    exact plain b member marked
  have same := sameEnd_letExpr reachable.closed known unmarked operands inside shallow
  exact ⟨same.seen_eq, same.names_eq known, same⟩

/-- `(let ((x x) (x (lambda (y) x)) (z (define w x))) (list x (= x x) w))` after `(define x 5)`. The
procedure is the value of the `x` that was bound last, and sees the `x` outside. -/
theorem let_ends_as_lambda_call_closure :
    let start : Session := ⟨{ Machine.initial with seed := 1 }, .empty⟩
    let s := (Session.observe (Session.perform (.run "(define x 5)")) start).session
    let bindings : List (String × Value) := [("x", .symbol "x"),
      ("x", .list [.symbol "lambda", .list [.symbol "y"], .symbol "x"]),
      ("z", .list [.symbol "define", .symbol "w", .symbol "x"])]
    let body : Value := .list [.symbol "list", .symbol "x",
      .list [.symbol "=", .symbol "x", .symbol "x"], .symbol "w"]
    let call := evaluateWithin 9 (Procedure.lambdaCall bindings body) Heap.root
    let form := evaluateWithin 9 (Form.letExpr bindings body) Heap.root
    s.Reachable ∧ Heap.root < s.machine.heap.next ∧ (∀ b ∈ bindings, b.1 ≠ restMarker) ∧
    seen (form s.machine) = (.ok "((lambda (y) x) #t 5)", "") ∧
    (after form s.machine).heap.names Heap.root = ["x", "w"] ∧
    SameEnd s.machine (call s.machine) (form s.machine) := by
  intro start s bindings body call form
  have reachable : s.Reachable := ⟨.empty, .warning, 1, .step _ .refl⟩
  have known : Heap.root < s.machine.heap.next := by decide +kernel
  have plain : ∀ b ∈ bindings, b.1 ≠ restMarker := by decide +kernel
  have operands : ∀ b ∈ bindings, s.machine.Knows b.2 := by
    simp [bindings, Machine.knows_list, Machine.knows_symbol]
  have inside : s.machine.Knows body := by
    simp [body, Machine.knows_list, Machine.knows_symbol]
  have ran : seen (call s.machine) = (.ok "((lambda (y) x) #t 5)", "") := by decide +kernel
  have names : (after call s.machine).heap.names Heap.root = ["x", "w"] := by decide +kernel
  have shallow : ∀ m, call s.machine ≠ .error .tooDeep m := by
    intro m deep
    rw [deep] at ran
    cases ran
  obtain ⟨same, sameNames, ends⟩ :=
    let_ends_as_lambda_call reachable known plain operands inside 9 shallow
  exact ⟨reachable, known, plain, same.symm.trans ran, sameNames.symm.trans names, ends⟩

end

end SmallLisp
