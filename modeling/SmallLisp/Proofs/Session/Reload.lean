import SmallLisp.Proofs.Session.Saved

/-! What comes back of a saved environment. Evaluating what its text spells makes an atom or a
procedure again, but a list is called and a symbol looked up. -/
namespace SmallLisp

open Heap Text.Utf8

/-- Evaluating it calls what stands first. -/
def Value.isCall : Value → Bool
  | .list (_ :: _) => true
  | _ => false

/-- What stands first in a list, and in the list that stands first in it, and so on. -/
def Value.leader : Value → Value
  | .list (head :: _) => head.leader
  | v => v

namespace Session

/-- What a symbol means in a root with these bindings. -/
def meaning (bound : Bindings) (name : String) : Value :=
  match quotedName? name with
  | some quoted => .symbol quoted
  | none => (constants.lookup name).getD ((bound.get? name).getD (.str name))

/-- An atom, or a procedure that a lambda form makes. -/
inductive Restorable : Value → Prop where
  | atom {v : Value} : v.isAtom → Restorable v
  | proc {id : Nat} {params : List String} {body : Value} {frame : FrameId} :
      Procedure.BindsWell params → Restorable (.proc id params body frame)

/-- An atom comes back as itself, and a procedure as one with the same parameters and a body of the
same text, which captures the root. -/
inductive Restores : Value → Value → Prop where
  | atom {v : Value} : v.isAtom → Restores v v
  | proc {id id' : Nat} {params : List String} {body : Value} {frame : FrameId} :
      Restores (.proc id params body frame) (.proc id' params body.spelled root)

theorem isCall_atom {v : Value} (atom : v.isAtom) : v.isCall = false := by
  cases v <;> first | rfl | cases atom

theorem Restorable.isCall {v : Value} (restorable : Restorable v) : v.isCall = false := by
  cases restorable with
  | atom atom => exact isCall_atom atom
  | proc => rfl

theorem Restores.isCall {v w : Value} (restores : Restores v w) : v.isCall = false := by
  cases restores with
  | atom atom => exact isCall_atom atom
  | proc => rfl

theorem Restores.text_eq {v w : Value} (restores : Restores v w) : w.text = v.text := by
  cases restores with
  | atom => rfl
  | proc => simp only [Value.text, Value.chars, Value.chars_spelled]

theorem Restores.kind_eq {v w : Value} (restores : Restores v w) : w.kind = v.kind := by
  cases restores <;> rfl

theorem Restores.of_proc {id : Nat} {params : List String} {body w : Value} {frame : FrameId}
    (restores : Restores (.proc id params body frame) w) :
    ∃ id', w = .proc id' params body.spelled root := by
  cases restores with
  | atom atom => cases atom
  | proc => exact ⟨_, rfl⟩

/-- The values whose text calls nothing that can be called. -/
inductive Inert : Value → Prop where
  | restorable {v : Value} : Restorable v → Inert v
  | symbol (name : String) : Inert (.symbol name)
  | empty : Inert (.list [])
  | led {head : Value} {items : List Value} : head.leader.isAtom → Inert (.list (head :: items))

/-- What a value comes back as in a root with these bindings. -/
inductive ComesBack (bound : Bindings) : Value → Value → Prop where
  | restored {v w : Value} : Restores v w → ComesBack bound v w
  | symbol {name : String} : ComesBack bound (.symbol name) (meaning bound name)
  | empty : ComesBack bound (.list []) .nil

/-- Line by line, what the root binds when saved bindings have been run in a new session, and the
warnings that this gives. Each is evaluated with the ones before it, and a list is lost. -/
inductive Reloads (file : String) : Bindings → Bindings → List Event → Prop where
  | nil : Reloads file [] [] []
  | back {saved bound : Bindings} {warnings : List Event} {name : String} {v w : Value} :
      Reloads file saved bound warnings → ComesBack bound v w →
      Reloads file (saved ++ [(name, v)]) (bound ++ [(name, w)]) warnings
  | lost {saved bound : Bindings} {warnings : List Event} {name : String} {head : Value}
      {items : List Value} : Reloads file saved bound warnings → head.leader.isAtom →
      Reloads file (saved ++ [(name, .list (head :: items))]) bound
        (warnings ++ [.failing file (saved.length + 2)
          (EvalError.notCallable head.leader.display head.leader).message])

section

variable {file : String} {saved bound : Bindings} {warnings : List Event}

/-- The names that come back are those of the values that are no calls. -/
theorem Reloads.names_eq (reloads : Reloads file saved bound warnings) :
    bound.names = Bindings.names (saved.filter fun d => !d.2.isCall) := by
  induction reloads with
  | nil => rfl
  | @back saved bound warnings name v w _ back ih =>
    have inert : v.isCall = false := by
      cases back with
      | restored restores => exact restores.isCall
      | symbol | empty => rfl
    simp only [Bindings.names] at ih
    simp [Bindings.names, inert, ih]
  | lost _ _ ih =>
    simp only [Bindings.names] at ih
    simp [Bindings.names, Value.isCall, ih]

theorem Reloads.mem_names (reloads : Reloads file saved bound warnings) {name : String}
    (member : name ∈ bound.names) : name ∈ saved.names := by
  rw [reloads.names_eq] at member
  obtain ⟨d, kept, rfl⟩ := List.mem_map.mp member
  exact List.mem_map_of_mem (List.mem_of_mem_filter kept)

/-- A symbol that is the name of no saved binding comes back as a string. -/
theorem Reloads.unbound (reloads : Reloads file saved bound warnings) {name symbol : String}
    (member : (name, .symbol symbol) ∈ saved) (unquoted : quotedName? symbol = none)
    (variable' : constants.lookup symbol = none) (free : symbol ∉ saved.names) :
    (name, .str symbol) ∈ bound := by
  have kept {saved : Bindings} {d : String × Value} (free : symbol ∉ (saved ++ [d]).names) :
      symbol ∉ saved.names := by
    rw [Bindings.names, List.map_append] at free
    exact fun inside => free (List.mem_append_left _ inside)
  induction reloads with
  | nil => cases member
  | @back saved bound warnings other v w reloads back ih =>
    rcases List.mem_append.mp member with earlier | last
    · exact List.mem_append_left _ (ih earlier (kept free))
    · obtain ⟨rfl, rfl⟩ := Prod.mk.inj (List.mem_singleton.mp last)
      have missing : bound.get? symbol = none :=
        Bindings.get?_eq_none fun inside => kept free (reloads.mem_names inside)
      have same : w = .str symbol := by
        cases back with
        | restored restores => cases restores with | atom atom => cases atom
        | symbol => simp [meaning, unquoted, variable', missing]
      rw [same]
      exact List.mem_append_right _ List.mem_cons_self
  | lost _ _ ih =>
    rcases List.mem_append.mp member with earlier | last
    · exact ih earlier (kept free)
    · cases List.mem_singleton.mp last

/-- Where only atoms and procedures are saved, all of them are restored and nothing is lost. -/
theorem Reloads.restores (reloads : Reloads file saved bound warnings)
    (restorable : ∀ d ∈ saved, Restorable d.2) :
    warnings = [] ∧ List.Forall₂ (fun d d' => d'.1 = d.1 ∧ Restores d.2 d'.2) saved bound := by
  induction reloads with
  | nil => exact ⟨rfl, .nil⟩
  | @back saved bound warnings name v w _ back ih =>
    obtain ⟨others, last⟩ := List.forall_mem_append.mp restorable
    obtain ⟨quiet, each⟩ := ih others
    have restores : Restores v w := by
      cases back with
      | restored restores => exact restores
      | _ => cases last _ List.mem_cons_self with | atom atom => cases atom
    exact ⟨quiet, List.rel_append each (.cons ⟨rfl, restores⟩ .nil)⟩
  | lost =>
    obtain ⟨_, last⟩ := List.forall_mem_append.mp restorable
    cases last _ List.mem_cons_self with
    | atom atom => cases atom

end

/-- A list is called, which fails on what leads it. -/
theorem evaluateWithin_led {depth : Nat} {head : Value} (items : List Value)
    (spellable : head.Spellable depth) (atom : head.leader.isAtom) (m : Machine) :
    Eval.evaluateWithin (depth + 1) (.list (head.spelled :: items)) root m =
      .error (EvalError.notCallable head.leader.display head.leader) m := by
  induction spellable generalizing items with
  | @list depth inner _ ih =>
    cases inner with
    | nil => cases atom
    | cons first rest =>
      have failed := ih first List.mem_cons_self (Value.spelledItems rest) atom
      change EStateM.bind _ _ m = _
      rw [Value.spelled, Value.spelledItems, EStateM.bind, failed]
      rfl
  | symbol | proc => cases atom
  | str | int | float | bool | nil => rfl

theorem resolve_root {m : Machine} (known : root < m.heap.next) (name : String) (limit : Nat) :
    Eval.evaluateWithin (limit + 1) (.symbol name) root m =
      .ok (meaning (m.heap.bindings root) name) m := by
  change Eval.step _ _ _ _ = _
  rw [Eval.step, meaning]
  cases quotedName? name with
  | some quoted => rfl
  | none =>
    simp only [Eval.resolve]
    cases constants.lookup name with
    | some v => rfl
    | none => exact congrArg (EStateM.Result.ok · m) (get_root known name)

/-- What an atom or a procedure spells evaluates to what it comes back as, and nothing else is
changed but the number of procedures. -/
theorem evaluate_restorable {v : Value} (restorable : Restorable v) (limit : Nat) (m : Machine) :
    ∃ w procedures, Restores v w ∧
      Eval.evaluateWithin (limit + 1) v.spelled root m = .ok w { m with procedures } := by
  cases restorable with
  | atom atom =>
    have same : v.spelled = v := by cases v <;> first | rfl | cases atom
    rw [same]
    exact ⟨v, m.procedures, .atom atom, congrFun (step_atom _ atom root) m⟩
  | proc binds =>
    have placed := (Procedure.wellPlaced_iff _).mpr binds
    exact ⟨_, m.procedures + 1, .proc, congrFun
      (Procedure.step_lambdaExpr_placed (Eval.evaluateWithin limit) placed _ root) m⟩

/-- The value of a saved line comes back, or is a list that is called and cannot be. -/
theorem evaluate_inert {v : Value} (inert : Inert v) {limit : Nat} (positive : 0 < limit)
    (spellable : v.Spellable limit) {m : Machine} (known : root < m.heap.next) :
    (∃ w procedures, ComesBack (m.heap.bindings root) v w ∧
      Eval.evaluateWithin limit v.spelled root m = .ok w { m with procedures }) ∨
    ∃ head items, v = .list (head :: items) ∧ head.leader.isAtom ∧
      Eval.evaluateWithin limit v.spelled root m =
        .error (EvalError.notCallable head.leader.display head.leader) m := by
  obtain ⟨limit, rfl⟩ := Nat.exists_eq_succ_of_ne_zero positive.ne'
  cases inert with
  | restorable restorable =>
    obtain ⟨w, procedures, restores, evaluated⟩ := evaluate_restorable restorable limit m
    exact .inl ⟨w, procedures, .restored restores, evaluated⟩
  | symbol name => exact .inl ⟨_, m.procedures, .symbol, resolve_root known name limit⟩
  | empty => exact .inl ⟨_, m.procedures, .empty, rfl⟩
  | @led head items atom =>
    cases spellable with
    | list each =>
      exact .inr ⟨head, items, rfl, atom,
        evaluateWithin_led _ (each head List.mem_cons_self) atom m⟩

theorem rerun_append (file : String) (number : Nat) (b b' : Bindings) (m : Machine) :
    rerun file number (b ++ b') m = rerun file (number + b.length) b' (rerun file number b m) := by
  induction b generalizing number m with
  | nil => rfl
  | cons d rest ih =>
    have shifted : number + (d :: rest).length = number + 1 + rest.length := by
      rw [List.length_cons]
      omega
    rw [List.cons_append, rerun, rerun, shifted]
    cases Eval.evaluateWithin (Eval.activationLimit - 1) d.2.spelled root m <;> exact ih _ _

/-- One line: the name is bound behind the others to what the value comes back as, or the list is
reported and nothing else is changed. -/
theorem rerun_one (file : String) (number : Nat) {name : String} {v : Value} (inert : Inert v)
    (spellable : v.Spellable (Eval.activationLimit - 1)) {m : Machine} (known : root < m.heap.next)
    (fresh : name ∉ m.heap.names root) :
    (∃ w heap procedures, ComesBack (m.heap.bindings root) v w ∧ root < heap.next ∧
      heap.bindings root = m.heap.bindings root ++ [(name, w)] ∧
      rerun file number [(name, v)] m = { m with heap, procedures }) ∨
    ∃ head items, v = .list (head :: items) ∧ head.leader.isAtom ∧
      rerun file number [(name, v)] m = m.noting (some (.failing file number
        (EvalError.notCallable head.leader.display head.leader).message)) := by
  rcases evaluate_inert inert (by decide) spellable known with
    ⟨w, procedures, back, evaluated⟩ | ⟨head, items, rfl, atom, evaluated⟩
  · refine .inl ⟨w, m.heap.define root name w, procedures, back, by simpa [Heap.define],
      Heap.bindings_define_new known fresh w, ?_⟩
    rw [rerun, evaluated]
    rfl
  · refine .inr ⟨head, items, rfl, atom, ?_⟩
    rw [rerun, evaluated]
    rfl

/-- Saved values that are inert are reloaded line by line in a root that binds nothing yet. Nothing
is printed, and only the lost ones are reported. -/
theorem rerun_inert (file : String) {b : Bindings} (savable : ∀ d ∈ b, Savable d)
    (inert : ∀ d ∈ b, Inert d.2) (distinct : b.names.Nodup) {m : Machine}
    (known : root < m.heap.next) (empty : m.heap.bindings root = []) :
    ∃ heap procedures warnings, root < heap.next ∧
      rerun file 2 b m =
        { m with heap, procedures, events := m.events ++ warnings.toArray } ∧
      Reloads file b (heap.bindings root) warnings := by
  -- The induction is on the last binding, which is evaluated with all the others in the root.
  induction b using List.reverseRecOn with
  | nil => exact ⟨m.heap, m.procedures, [], known, by simp [rerun], by rw [empty]; exact .nil⟩
  | append_singleton b d ih =>
    obtain ⟨name, v⟩ := d
    obtain ⟨savable, last⟩ := List.forall_mem_append.mp savable
    obtain ⟨inert, lastInert⟩ := List.forall_mem_append.mp inert
    rw [Bindings.names, List.map_append] at distinct
    obtain ⟨distinct, _, apart⟩ := List.nodup_append.mp distinct
    obtain ⟨heap, procedures, warnings, known', ran, reloads⟩ := ih savable inert distinct
    have fresh : name ∉ heap.names root := fun member =>
      apart name (reloads.mem_names member) name (List.mem_singleton.mpr rfl) rfl
    have step := rerun_one file (2 + b.length) (lastInert _ List.mem_cons_self)
      (last _ List.mem_cons_self).value
      (m := { m with heap, procedures, events := m.events ++ warnings.toArray }) known' fresh
    rw [rerun_append, ran]
    rcases step with
      ⟨w, heap', procedures', back, known'', bindings, ran'⟩ | ⟨head, items, rfl, atom, ran'⟩
    · exact ⟨heap', procedures', warnings, known'', ran', bindings ▸ reloads.back back⟩
    · refine ⟨heap, procedures, _, known', ?_, reloads.lost atom⟩
      rw [ran']
      simp [Machine.noting, Machine.keep, Nat.add_comm]

/-- A saved environment of inert values is reloaded line by line when a new session runs it. -/
theorem observe_reloads {s s' : Session} {path : String} (saved : save path s = .ok () s')
    (distinct : s.names.Nodup)
    (savable : ∀ d ∈ s.machine.heap.bindings root, Savable d)
    (inert : ∀ d ∈ s.machine.heap.bindings root, Inert d.2) {level : Level} {seed : Nat}
    {file : Observed Unit}
    (seen : (s'.renewed level seed).observe (runFile path) = file) :
    ∃ warnings, file.result = .ok () ∧
      file.report = ⟨"", .running (Path.normalize path) :: warnings⟩ ∧
      Reloads (Path.name (Path.normalize path)) (s.machine.heap.bindings root)
        (file.session.machine.heap.bindings root) warnings := by
  obtain ⟨heap, procedures, warnings, _, ran, reloads⟩ :=
    rerun_inert (Path.name (Path.normalize path)) savable inert distinct
      (m := (s'.renewed level seed).machine) Nat.zero_lt_one rfl
  have observed : file = ⟨.ok (), ⟨"", .running (Path.normalize path) :: warnings⟩,
      ⟨{ (s'.renewed level seed).machine with heap, procedures }, s'.store⟩⟩ := by
    refine seen.symm.trans ((observe_renewed saved savable level seed).trans ?_)
    simp only
    rw [ran]
    simp [renewed, Machine.reported, Machine.initial]
  exact ⟨warnings, by rw [observed], by rw [observed], by rwa [observed]⟩

/-- A saved environment of atoms and procedures, whose texts can be read on one line, is restored by
running it in a new session. That warns of nothing and prints nothing, binds the same names in the
same order, to values of the same kinds and texts, and its procedures have the same parameters and
capture the new root. -/
theorem runFile_restores_saved {s s' : Session} {path : String} (saved : save path s = .ok () s')
    (distinct : s.names.Nodup)
    (savable : ∀ d ∈ s.machine.heap.bindings root, Savable d)
    (restorable : ∀ d ∈ s.machine.heap.bindings root, Restorable d.2) (level : Level) (seed : Nat) :
    let file := (s'.renewed level seed).observe (runFile path)
    let before := s.machine.heap.bindings root
    let restored := file.session.machine.heap.bindings root
    file.result = .ok () ∧ file.report = ⟨"", [.running (Path.normalize path)]⟩ ∧
    restored.names = before.names ∧
    List.Forall₂ (fun d d' => d'.2.kind = d.2.kind ∧ d'.2.text = d.2.text ∧
      ∀ id params body frame, d.2 = .proc id params body frame →
        ∃ id' body', d'.2 = .proc id' params body' root) before restored := by
  intro file before restored
  obtain ⟨warnings, result, report, reloads⟩ := observe_reloads saved distinct savable
    (fun d member => .restorable (restorable d member)) (rfl : _ = file)
  obtain ⟨rfl, each⟩ := reloads.restores restorable
  refine ⟨result, report, ?_, each.imp fun d d' ⟨_, restores⟩ => ?_⟩
  · rw [reloads.names_eq, List.filter_eq_self.mpr]
    intro d member
    rw [(restorable d member).isCall, Bool.not_false]
  · refine ⟨restores.kind_eq, restores.text_eq, ?_⟩
    intro id params body frame procedure
    rw [procedure] at restores
    obtain ⟨id', same⟩ := restores.of_proc
    exact ⟨id', _, same⟩

/-- A store without files takes one. -/
theorem save_empty {m : Machine} (writable : ∀ d ∈ m.heap.bindings root, Writable d) :
    ∃ s', save "f" ⟨m, .empty⟩ = .ok () s' := by
  have normal : Path.normalize "f" = "f" := by cbv
  have written (bytes : Bytes) :
      Store.empty.write "f" bytes = .ok ⟨[(⟨some 0, ["f"]⟩, bytes)], []⟩ := by cbv
  obtain ⟨s', saved, -⟩ : ∃ s', save "f" ⟨m, .empty⟩ = .ok () s' ∧ s'.store = _ :=
    save_of_write (by rw [normal]; decide) writable (by rw [normal]; exact written _)
  exact ⟨s', saved⟩

/-- An integer, a string with a quote and a backslash, a negative zero, and a variadic procedure
whose body quotes a list with a string in it. -/
theorem runFile_restores_saved_variadic :
    let body : Value := .list [.symbol "cons", .symbol "a",
      .list [.symbol "quote", .list [.symbol "'r", .str "b\"c\\"]]]
    let bindings : Bindings := [("n", .int Value.leastInt), ("s", .str "\"\\é"),
      ("z", .float (.zero true)), ("f", .proc 7 ["a", ".", "r"] body root)]
    let s : Session := ⟨{ Machine.initial with heap := ⟨#[⟨bindings, none⟩]⟩ }, .empty⟩
    ∃ s', save "f" s = .ok () s' ∧ s.names.Nodup ∧ (∀ d ∈ bindings, Savable d) ∧
      (∀ d ∈ bindings, Restorable d.2) ∧
      ((s'.renewed .warning 1).observe (runFile "f")).session.names = ["n", "s", "z", "f"] := by
  intro body bindings s
  have quoted : (Value.list [.symbol "'r", .str "b\"c\\"]).Spellable 996 := by
    have mark : Atom.Readable "'r" := by decide +kernel
    have text : (Value.str "b\"c\\").Spellable 995 := .str (by decide)
    exact .list (by simpa using ⟨.symbol mark, text⟩)
  have spelled : body.Spellable 998 := by
    have cons : Atom.Readable "cons" := by decide +kernel
    have quote : Atom.Readable "quote" := by decide +kernel
    have a : Atom.Readable "a" := by decide +kernel
    have inner : (Value.list [.symbol "quote", .list [.symbol "'r", .str "b\"c\\"]]).Spellable 997 :=
      .list (by simpa using ⟨.symbol quote, quoted⟩)
    exact .list (by simpa using ⟨.symbol cons, .symbol a, inner⟩)
  have savable : ∀ d ∈ bindings, Savable d := by
    have least : Value.InRange Value.leastInt := by decide
    have parameters : ∀ p ∈ ["a", ".", "r"], Atom.Readable p := by decide +kernel
    have n : Savable ("n", .int Value.leastInt) := ⟨by decide +kernel, .int least⟩
    have s : Savable ("s", .str "\"\\é") := ⟨by decide +kernel, .str (by decide)⟩
    have z : Savable ("z", .float (.zero true)) := ⟨by decide +kernel, .float _⟩
    have f : Savable ("f", .proc 7 ["a", ".", "r"] body root) :=
      ⟨by decide +kernel, .proc parameters spelled⟩
    simpa [bindings] using ⟨n, s, z, f⟩
  have restorable : ∀ d ∈ bindings, Restorable d.2 := by
    have f : Restorable (.proc 7 ["a", ".", "r"] body root) :=
      .proc ((Procedure.wellPlaced_iff _).mp (by decide))
    simpa [bindings] using ⟨.atom rfl, .atom rfl, .atom rfl, f⟩
  obtain ⟨s', saved⟩ := save_empty (m := s.machine) fun d member => (savable d member).writable
  obtain ⟨-, -, names, -⟩ := runFile_restores_saved saved (by decide) savable restorable .warning 1
  exact ⟨s', saved, by decide, savable, restorable, names⟩

/-- A saved environment is run line by line in a new session. The definition of a string with a line
feed in it takes several lines. The first of these only leaves a warning, and then the rest of the
string is run as lines of the script. Where all texts can be read on one line, each definition is
evaluated. If moreover none of its lists is led by anything that could be called, these are lost,
each with a warning on its line, and a symbol that is the name of no saved binding comes back as a
string. -/
theorem runFile_reruns_saved {s s' : Session} {path : String} (saved : save path s = .ok () s')
    (distinct : s.names.Nodup) (level : Level) (seed : Nat) :
    let new := s'.renewed level seed
    let file := new.observe (runFile path)
    let name := Path.name (Path.normalize path)
    let before := s.machine.heap.bindings root
    let restored := file.session.machine.heap.bindings root
    let m := rerun name 2 before new.machine
    (∃ bytes, readFile (Path.normalize path) new = .ok bytes new ∧
      splitLines bytes = encode (fileHeader ++ "\n") :: before.flatMap definitionLines) ∧
    (∀ d front back, (d, .str (String.ofList (front ++ '\n' :: back))) ∈ before →
      Atom.Readable d → '\n' ∉ front → ∀ number later m,
        runLines name number
            (definitionLines (d, .str (String.ofList (front ++ '\n' :: back))) ++ later) m =
          runLines name (number + 1) (splitLines (encode (definitionRest back)) ++ later)
            (m.noting (some (unclosed name number front)))) ∧
    ((∀ d ∈ before, Savable d) →
      file = ⟨.ok (), ⟨m.printed, .running (Path.normalize path) :: m.events.toList⟩,
        ⟨m.reported, s'.store⟩⟩ ∧
      ((∀ d ∈ before, Inert d.2) →
        (∃ warnings, file.report = ⟨"", .running (Path.normalize path) :: warnings⟩ ∧
          Reloads name before restored warnings) ∧
        restored.names = Bindings.names (before.filter fun d => !d.2.isCall) ∧
        ∀ name symbol, (name, .symbol symbol) ∈ before → quotedName? symbol = none →
          constants.lookup symbol = none → symbol ∉ before.names →
            (name, .str symbol) ∈ restored)) := by
  intro new file name before restored m
  refine ⟨⟨_, readFile_of_save saved new.machine, splitLines_script _⟩,
    fun d front back _ readable within number later m =>
      runLines_openDefinition readable within back name number later m,
    fun savable => ⟨observe_renewed saved savable level seed, fun inert => ?_⟩⟩
  obtain ⟨warnings, -, report, reloads⟩ :=
    observe_reloads saved distinct savable inert (rfl : _ = file)
  exact ⟨⟨warnings, report, reloads⟩, reloads.names_eq,
    fun _ _ member unquoted variable' free => reloads.unbound member unquoted variable' free⟩

/-- Two lists, of which one is led by a list, and a symbol that names nothing. In another session,
a string of two lines. -/
theorem runFile_reruns_saved_lists :
    let bindings : Bindings := [("x", .list [.int 1, .int 2]), ("y", .symbol "a"),
      ("z", .list [.list [.str "a"], .nil])]
    let s : Session := ⟨{ Machine.initial with heap := ⟨#[⟨bindings, none⟩]⟩ }, .empty⟩
    let text : Value := .str (String.ofList (['a'] ++ '\n' :: ['1']))
    let t : Session := ⟨{ Machine.initial with heap := ⟨#[⟨[("t", text)], none⟩]⟩ }, .empty⟩
    (∃ s', save "f" s = .ok () s' ∧ s.names.Nodup ∧ (∀ d ∈ bindings, Savable d) ∧
      (∀ d ∈ bindings, Inert d.2) ∧
      let file := (s'.renewed .warning 1).observe (runFile "f")
      file.session.machine.heap.names root = ["y"] ∧
      ("y", .str "a") ∈ file.session.machine.heap.bindings root) ∧
    ∃ t', save "f" t = .ok () t' ∧ t.names.Nodup ∧ Atom.Readable "t" ∧ '\n' ∉ ['a'] ∧
      ∀ m, runLines "f" 2 (definitionLines ("t", text)) m =
        runLines "f" 3 [encode "1\")\n"] (m.noting (some (unclosed "f" 2 ['a']))) := by
  intro bindings s text t
  have savable : ∀ d ∈ bindings, Savable d := by
    have a : (Value.list [.str "a"]).Spellable 998 :=
      .list (by simpa using Value.Spellable.str (by decide))
    have x : Savable ("x", .list [.int 1, .int 2]) :=
      ⟨by decide +kernel, .list (by simpa using ⟨.int (by decide), .int (by decide)⟩)⟩
    have y : Savable ("y", .symbol "a") := ⟨by decide +kernel, .symbol (by decide +kernel)⟩
    have z : Savable ("z", .list [.list [.str "a"], .nil]) :=
      ⟨by decide +kernel, .list (by simpa using ⟨a, .nil⟩)⟩
    simpa [bindings] using ⟨x, y, z⟩
  have inert : ∀ d ∈ bindings, Inert d.2 := by
    have x : Inert (.list [.int 1, .int 2]) := .led rfl
    have y : Inert (.symbol "a") := .symbol _
    have z : Inert (.list [.list [.str "a"], .nil]) := .led rfl
    simpa [bindings] using ⟨x, y, z⟩
  obtain ⟨s', saved⟩ := save_empty (m := s.machine) fun d member => (savable d member).writable
  obtain ⟨-, -, reloaded⟩ := runFile_reruns_saved saved (by decide) .warning 1
  obtain ⟨-, names, symbols⟩ := (reloaded savable).2 inert
  obtain ⟨t', saved'⟩ := save_empty (m := t.machine)
    ((List.forall_mem_singleton.mpr (by decide) : ∀ d ∈ [("t", text)], Writable d))
  obtain ⟨-, broken, -⟩ := runFile_reruns_saved saved' (by decide) .warning 1
  have readable : Atom.Readable "t" := by decide +kernel
  have named : Path.name (Path.normalize "f") = "f" := by cbv
  have rest : splitLines (encode (definitionRest ['1'])) = [encode "1\")\n"] := by decide +kernel
  refine ⟨⟨s', saved, by decide, savable, inert, names,
    symbols "y" "a" (List.mem_cons_of_mem _ List.mem_cons_self : _ ∈ bindings) (by decide)
      (by decide) (by decide)⟩, t', saved', by decide, readable, by decide, fun m => ?_⟩
  have ran := broken "t" ['a'] ['1'] List.mem_cons_self readable (by decide) 2 [] m
  rwa [named, List.append_nil, List.append_nil, rest] at ran

/-- A list that a session has defined is not there when a new one runs what has been saved. -/
theorem saved_list_is_lost :
    ∃ v s s', run "(define x (quote (1 2)))\n" (initial .empty) = .ok v s ∧
      s.machine.heap.bindings root = [("x", .list [.int 1, .int 2])] ∧
      Savable ("x", .list [.int 1, .int 2]) ∧ save "f" s = .ok () s' ∧
      ((s'.renewed .warning 1).observe (runFile "f")).report = ⟨"", [.running "f",
        .failing "f" 2 (EvalError.uncallable "1" "Integer").message]⟩ ∧
      ((s'.renewed .warning 1).observe (runFile "f")).session.names = [] := by
  have normal : Path.normalize "f" = "f" := by cbv
  have name : Path.name "f" = "f" := by cbv
  let s : Session := ⟨{ Machine.initial with
    heap := ⟨#[⟨[("x", .list [.int 1, .int 2])], none⟩]⟩ }, .empty⟩
  have list (depth : Nat) : (Value.list [.int 1, .int 2]).Spellable (depth + 1) :=
    .list (by simpa using ⟨.int (by decide), .int (by decide)⟩)
  have x : Atom.Readable "x" := by decide +kernel
  have quote : Atom.Readable "quote" := by decide +kernel
  have quoted : Savable ("x", .list [.symbol "quote", .list [.int 1, .int 2]]) :=
    ⟨x, .list (by simpa using ⟨.symbol quote, list 997⟩)⟩
  have source : definitionLine "x" (.list [.symbol "quote", .list [.int 1, .int 2]]) =
      "(define x (quote (1 2)))\n" := by decide +kernel
  have made := source ▸ quoted.read
  have ran : run "(define x (quote (1 2)))\n" (initial .empty) = .ok Form.success s := by
    simp only [run, within, evaluateSource_read made]
    rfl
  have savable : Savable ("x", .list [.int 1, .int 2]) := ⟨x, list 998⟩
  have each : ∀ d ∈ s.machine.heap.bindings root, Savable d :=
    (List.forall_mem_singleton.mpr savable : ∀ d ∈ [("x", Value.list [.int 1, .int 2])], Savable d)
  obtain ⟨s', saved⟩ := save_empty fun d member => (each d member).writable
  have lost : rerun "f" 2 (s.machine.heap.bindings root) (s'.renewed .warning 1).machine =
      (s'.renewed .warning 1).machine.noting
        (some (.failing "f" 2 (EvalError.uncallable "1" "Integer").message)) := by
    rfl
  have seen := observe_renewed saved each .warning 1
  simp only [normal, name, lost] at seen
  exact ⟨_, s, s', ran, rfl, savable, saved, by rw [seen]; rfl, by rw [seen]; rfl⟩

end Session

end SmallLisp
