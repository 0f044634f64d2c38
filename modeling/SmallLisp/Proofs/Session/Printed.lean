import SmallLisp.Proofs.Reader.Printed
import SmallLisp.Proofs.Session.Reachable

/-! Data that a session answers are read again from their text. All that can stand in the way is a
name that no text is read as, and a snippet can evaluate to such a name. -/
namespace SmallLisp.Session

/-- What a snippet evaluates to is read back from its text, if there is no procedure in it and no
name that is read as something else, and it is not nested too deeply. The exception are names that
no text is read as. Where one of them occurs, the text may be read as nothing, or as a value with
another text, but never as a value with that text. -/
theorem run_value_reads_back {s : Session} (reachable : s.Reachable) {source : String} {v : Value}
    (answered : (observe (perform (.run source)) s).result = .ok (.value v))
    (data : ∀ id params body f, ¬ (Value.proc id params body f).OccursIn v)
    (plain : ∀ name, (Value.symbol name).OccursIn v → ∀ w, Atom.ofItem name = .ok w →
      w = .symbol name)
    (shallow : v.nesting ≤ Pending.nestingLimit) :
    ((∀ name, (Value.symbol name).OccursIn v → ¬ Atom.Unwritable name) → read v.text = .ok v) ∧
    ∀ name, (Value.symbol name).OccursIn v → Atom.Unwritable name →
      ∀ w, read v.text = .ok w → w.text ≠ v.text := by
  obtain ⟨store, level, seed, reaches⟩ := reachable
  have ready : s.machine.Ready :=
    (reaches.machineExtends (Machine.ready_initial level seed)).ready (Machine.ready_initial level seed)
  have sound := (extends_observe (leads_perform ready (.run source))).2 _ answered v rfl
  have named (name : String) (occurs : (Value.symbol name).OccursIn v) : IsName name :=
    (sound.of_occursIn occurs).symbol_name
  refine ⟨fun writable => ?_, fun name occurs unwritable w => ?_⟩
  · have readable : v.Sound Atom.Readable 0 := sound.data data fun name occurs =>
      Atom.readable_of_writable (named name occurs) (plain name occurs) (writable name occurs)
    exact read_text (readable.readable shallow)
  · exact Value.text_ne_of_read (sound.data data named) occurs unwritable

theorem answer_text {s : Session} {expr v : Value} {m : Machine}
    (readable : expr.Readable Pending.nestingLimit)
    (ended : Eval.evaluate expr Heap.root s.machine = .ok v m) :
    (observe (perform (.run expr.text)) s).result = .ok (.value v) := by
  rw [observe, perform_run_text readable ended]

/-- A list with the name of a sign, a string of a quote and a list, in a new session. -/
theorem run_value_reads_back_list :
    let s : Session := ⟨{ Machine.initial with level := .debug, seed := 1 }, .empty⟩
    let v : Value := .list [.symbol "-", .str "\"", .list [.symbol "'b", .int 1]]
    let source := "(quote (- \"\\\"\" ('b 1)))"
    s.Reachable ∧ (observe (perform (.run source)) s).result = .ok (.value v) ∧
    (∀ id params body f, ¬ (Value.proc id params body f).OccursIn v) ∧
    (∀ name, (Value.symbol name).OccursIn v → ∀ w, Atom.ofItem name = .ok w → w = .symbol name) ∧
    v.nesting ≤ Pending.nestingLimit ∧ v.text = "(- \"\\\"\" ('b 1))" ∧ read v.text = .ok v := by
  intro s v source
  have reachable : s.Reachable := ⟨.empty, .debug, 1, .refl⟩
  have minus : Atom.Readable "-" := by decide +kernel
  have quoted : Atom.Readable "'b" := by decide +kernel
  have inner : (Value.list [.symbol "'b", .int 1]).Sound Atom.Readable 0 := by
    have one : (Value.int 1).Sound Atom.Readable 0 := .int (by decide)
    exact .list (by simp [Value.Sound.symbol quoted, one])
  have sound : v.Sound Atom.Readable 0 :=
    .list (by simp [Value.Sound.symbol minus, Value.Sound.str, inner])
  have answered : (observe (perform (.run source)) s).result = .ok (.value v) := by
    have keyword : Atom.Readable "quote" := by decide +kernel
    have form : (Value.list [.symbol "quote", v]).Sound Atom.Readable 0 :=
      .list (by simp [Value.Sound.symbol keyword, sound])
    have same : source = (Value.list [.symbol "quote", v]).text := by decide +kernel
    rw [same]
    exact answer_text (form.readable (by decide)) rfl
  have data (id : Nat) (params : List String) (body : Value) (f : FrameId) :
      ¬ (Value.proc id params body f).OccursIn v := by
    intro inside
    exact absurd (sound.capturesBelow _ _ _ _ inside) (Nat.not_lt_zero f)
  have readable (name : String) (inside : (Value.symbol name).OccursIn v) : Atom.Readable name :=
    (sound.of_occursIn inside).symbol_name
  have plain (name : String) (inside : (Value.symbol name).OccursIn v) (w : Value)
      (made : Atom.ofItem name = .ok w) : w = .symbol name := by
    cases made.symm.trans (readable name inside).writes.read
    rfl
  have shallow : v.nesting ≤ Pending.nestingLimit := by decide
  refine ⟨reachable, answered, data, plain, shallow, by decide +kernel, ?_⟩
  refine (run_value_reads_back reachable answered data plain shallow).1 fun name inside lost => ?_
  exact lost.not_writes (readable name inside).writes

/-- Two quote marks are a quoted name, and its value is the name of one. The text of this cannot be
read, and before a list it is read as the mark that quotes the list. -/
theorem run_answers_quote_mark :
    let s : Session := ⟨{ Machine.initial with level := .debug, seed := 1 }, .empty⟩
    s.Reachable ∧ Atom.ofItem "'" = .ok (.symbol "'") ∧
    (observe (perform (.run "''")) s).result = .ok (.value (.symbol "'")) ∧
    (Value.symbol "'").text = "'" ∧ (∀ v, read "'" ≠ .ok v) ∧
    (match (observe (perform (.run "(cons '' '((1)))")) s).result with
      | .ok (.value v) => some v.text
      | _ => none) = some "(' (1))" ∧
    (read "(' (1))").toOption.map Value.text = some "((quote (1)))" := by
  intro s
  have answered : (observe (perform (.run "''")) s).result = .ok (.value (.symbol "'")) := by
    have quoted : Atom.Readable "''" := by decide +kernel
    have same : "''" = (Value.symbol "''").text := by decide +kernel
    rw [same]
    exact answer_text (.symbol quoted) rfl
  have unread (v : Value) : read "'" ≠ .ok v := by
    have failed : (read "'").toOption.isSome = false := by decide +kernel
    intro made
    rw [made] at failed
    cases failed
  exact ⟨⟨.empty, .debug, 1, .refl⟩, rfl, answered, by decide +kernel, unread, by decide +kernel,
    by decide +kernel⟩

end SmallLisp.Session
