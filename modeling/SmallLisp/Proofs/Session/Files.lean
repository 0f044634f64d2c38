import Mathlib.Data.List.TakeWhile
import SmallLisp.Proofs.Evaluation.Reporting
import SmallLisp.Session.Report
import SmallLisp.Session.Script

/-! The files of a session. What has been written to a path is read from it again, and what a
script does is what its lines do, read from the store. -/
namespace SmallLisp

namespace Store

variable {s : Store} {place : Place} {bytes : Bytes}

theorem file?_put (s : Store) (place : Place) (bytes : Bytes) :
    (s.put place bytes).file? place = some bytes := by
  obtain ⟨files, folders⟩ := s
  simp only [put, file?]
  induction files with
  | nil => simp
  | cons f rest ih =>
    obtain ⟨other, old⟩ := f
    by_cases same : place = other
    · subst same
      simp
    · have apart : (place == other) = false := beq_eq_false_iff_ne.mpr same
      have apart' : ¬ other = place := fun eq => same eq.symm
      cases found : List.lookup place rest <;>
        simpa [List.lookup_cons, apart, apart', found] using ih

/-- The places of the files are the same, or there is one more. -/
theorem places_put (s : Store) (place : Place) (bytes : Bytes) :
    (s.put place bytes).files.map (·.1) = s.files.map (·.1) ∨
    (s.put place bytes).files.map (·.1) = s.files.map (·.1) ++ [place] := by
  rw [put]
  split
  · refine .inl ?_
    rw [List.map_map]
    refine List.map_congr_left fun f _ => ?_
    simp only [Function.comp]
    split
    · next same => exact same.symm
    · rfl
  · exact .inr (by simp)

theorem folders_put (s : Store) (place : Place) (bytes : Bytes) :
    (s.put place bytes).folders = s.folders := by
  rw [put]
  split <;> rfl

theorem isFolder_put_of_isFolder {other : Place} (folder : s.isFolder other = true) :
    (s.put place bytes).isFolder other = true := by
  rw [isFolder, folders_put]
  rw [isFolder] at folder
  rcases places_put s place bytes with same | more
  · rwa [same]
  · rw [more]
    simp only [Bool.or_eq_true, List.any_append] at folder ⊢
    tauto

/-- A file makes no folder of its own place. -/
theorem isFolder_put_self (s : Store) (place : Place) (bytes : Bytes) :
    (s.put place bytes).isFolder place = s.isFolder place := by
  have outside : place.holds place = false := by simp [Place.holds]
  rw [isFolder, isFolder, folders_put]
  rcases places_put s place bytes with same | more
  · rw [same]
  · rw [more]
    simp [outside]

/-- The way to the file goes through the same folders once it is there. -/
theorem follow_put {start : Place} {parts : List String} (led : s.follow start parts = .ok place)
    (plain : s.isFolder place = false) : (s.put place bytes).follow start parts = .ok place := by
  induction parts generalizing start with
  | nil => exact led
  | cons part rest ih =>
    rw [follow] at led ⊢
    split
    · next nowhere => exact ih (by rwa [if_pos nowhere] at led)
    · next somewhere =>
      rw [if_neg somewhere] at led
      split
      · next up => exact ih (by rwa [if_pos up] at led)
      · next down =>
        rw [if_neg down] at led
        split
        · next long => rw [if_pos long] at led; cases led
        · next short =>
          rw [if_neg short] at led
          simp only at led ⊢
          by_cases folder : s.isFolder (start.below part) = true
          · rw [if_pos folder] at led
            rw [if_pos (isFolder_put_of_isFolder folder)]
            exact ih led
          · rw [if_neg folder] at led
            split at led
            · next last =>
              obtain rfl : start.below part = place := Except.ok.inj led
              rw [isFolder_put_self, if_neg folder, if_pos last]
            · cases led

theorem locate_put {path : String} {parts : List String} (led : s.locate path parts = .ok place)
    (plain : s.isFolder place = false) : (s.put place bytes).locate path parts = .ok place := by
  rw [locate] at led ⊢
  split
  · next nowhere => rw [if_pos nowhere] at led; cases led
  · next named =>
    rw [if_neg named] at led
    split
    · next long => rw [if_pos long] at led; cases led
    · next short => exact follow_put (by rwa [if_neg short] at led) plain

/-- What has been written is read. -/
theorem read_of_write {path : String} {s' : Store} (written : s.write path bytes = .ok s') :
    s'.read path = .ok bytes := by
  simp only [write] at written
  split at written
  · split at written <;> cases written
  · cases led : s.locate path (path.splitOn "/") with
    | error fault => rw [led] at written; cases written
    | ok place =>
      rw [led] at written
      simp only at written
      split at written
      · cases written
      · next plain =>
        have plain : s.isFolder place = false := eq_false_of_ne_true plain
        cases written
        rw [read, locate_put led plain]
        simp [isFolder_put_self, plain, file?_put]

end Store

end SmallLisp

namespace SmallLisp.Session

variable {path : String} {bytes : Bytes} {s : Session} {m' : Machine}

theorem get_bind {ε σ α : Type} (next : σ → EStateM ε σ α) (s : σ) :
    (get >>= next) s = next s s := rfl

theorem withFile_eq {α : Type} (named : '\x00' ∉ path.toList) (use : Store → Except StoreFault α) :
    withFile path use s = match use s.store with
      | .ok a => .ok a s
      | .error fault => .error (.store ⟨fault, path⟩) s := by
  have looked : withFile path use = (get >>= fun s => match use s.store with
      | .ok a => return a
      | .error fault => throw (.store ⟨fault, path⟩)) := if_neg (by simpa using named)
  rw [looked, get_bind]
  cases use s.store <;> rfl

theorem writeFile_eq (named : '\x00' ∉ path.toList) (bytes : Bytes) :
    writeFile path bytes s = match s.store.write path bytes with
      | .ok store => .ok () ⟨s.machine, store⟩
      | .error fault => .error (.store ⟨fault, path⟩) s := by
  have wrote := withFile_eq (s := s) named (·.write path bytes)
  cases taken : s.store.write path bytes with
  | ok store =>
    rw [taken] at wrote
    exact (bind_eq wrote).trans rfl
  | error fault =>
    rw [taken] at wrote
    exact bind_eq_error wrote

theorem readFile_eq_ok {path : String} {s : Session} :
    readFile path s = .ok bytes s ↔ '\x00' ∉ path.toList ∧ s.store.read path = .ok bytes := by
  by_cases named : '\x00' ∈ path.toList
  · have unnameable : readFile path s = .error .unnameable s := by
      simp only [readFile, withFile]
      rw [if_pos (by simpa using named)]
      rfl
    simp [unnameable, named]
  · rw [readFile, withFile_eq named]
    cases s.store.read path <;> simp [named]

theorem quiet_report {m : Machine} (quiet : m.reported = m) : m.printed = "" ∧ m.events = #[] := by
  rw [← quiet]
  exact ⟨rfl, rfl⟩

/-- What is seen of a script is what its lines report, after the note that it runs. -/
theorem observe_runFile (quiet : s.machine.reported = s.machine)
    (stored : readFile (Path.normalize path) s = .ok bytes s)
    (ran : runLines (Path.name (Path.normalize path)) 1 (splitLines bytes) s.machine = .ok () m') :
    s.observe (runFile path) =
      ⟨.ok (), ⟨m'.printed, .running (Path.normalize path) :: m'.events.toList⟩,
        ⟨m'.reported, s.store⟩⟩ := by
  have lines := reports_runLines (Path.name (Path.normalize path)) 1 (splitLines bytes) s.machine ""
    #[.running (Path.normalize path)]
  have logged : { s.machine with events := s.machine.events.push (.running (Path.normalize path)) } =
      s.machine.reporting "" #[.running (Path.normalize path)] := by
    simp [Machine.reporting, (quiet_report quiet).2]
  obtain ⟨named, read⟩ := readFile_eq_ok.mp stored
  have found : readFile (Path.normalize path)
      ⟨s.machine.reporting "" #[.running (Path.normalize path)], s.store⟩ = .ok bytes _ :=
    readFile_eq_ok.mpr ⟨named, read⟩
  have ranFile : runFile path s =
      .ok () ⟨m'.reporting "" #[.running (Path.normalize path)], s.store⟩ := by
    have logs : log (.running (Path.normalize path)) s =
        .ok () ⟨s.machine.reporting "" #[.running (Path.normalize path)], s.store⟩ :=
      congrArg (fun m => EStateM.Result.ok () (Session.mk m s.store)) logged
    refine (bind_eq logs).trans ((bind_eq found).trans ?_)
    rw [within]
    simp only [lines, ran, changed]
  rw [observe, ranFile]
  simp [takeReport, Machine.reporting, Machine.reported]

/-- What has been written to a path is read from it. -/
theorem readFile_of_writeFile {s' : Session} (written : writeFile path bytes s = .ok () s') :
    readFile path s' = .ok bytes s' := by
  by_cases named : '\x00' ∈ path.toList
  · have unnameable : withFile path (·.write path bytes) s = .error .unnameable s := by
      rw [withFile, if_pos (by simpa using named)]
      rfl
    rw [writeFile, bind_eq_error unnameable] at written
    cases written
  · rw [writeFile_eq named] at written
    cases made : s.store.write path bytes with
    | error fault => rw [made] at written; cases written
    | ok store =>
      rw [made] at written
      cases written
      exact readFile_eq_ok.mpr ⟨named, Store.read_of_write made⟩

theorem takeWhile_writable {b : Bindings} (writable : ∀ d ∈ b, Writable d) :
    (b.takeWhile fun d => Writable d) = b :=
  List.takeWhile_eq_self_iff.mpr fun d member => decide_eq_true (writable d member)

/-- A save succeeds if nothing nests too deep and the store takes the file. -/
theorem save_of_write {store : Store} (named : '\x00' ∉ (Path.normalize path).toList)
    (writable : ∀ d ∈ s.machine.heap.bindings Heap.root, Writable d)
    (written : s.store.write (Path.normalize path)
      (Text.Utf8.encode (script (s.machine.heap.bindings Heap.root))) = .ok store) :
    ∃ s', save path s = .ok () s' ∧ s'.store = store := by
  have stored : writeFile (Path.normalize path)
      (Text.Utf8.encode (script (s.machine.heap.bindings Heap.root))) s =
      .ok () ⟨s.machine, store⟩ := by
    rw [writeFile_eq named, written]
  rw [save, get_bind, takeWhile_writable writable, if_pos (by simpa using writable)]
  exact ⟨_, (bind_eq stored).trans rfl, rfl⟩

/-- Nothing that has been saved nests too deep. -/
theorem writable_of_save {s' : Session} (saved : save path s = .ok () s') :
    ∀ d ∈ s.machine.heap.bindings Heap.root, Writable d := by
  rw [save, get_bind] at saved
  change EStateM.bind _ _ s = _ at saved
  rw [EStateM.bind] at saved
  split at saved
  · split at saved
    · next writable => simpa using writable
    · cases saved
  · cases saved

/-- What has been saved is there, also for a session that has only the store from then. -/
theorem readFile_of_save {s' : Session} (saved : save path s = .ok () s') (m : Machine) :
    readFile (Path.normalize path) ⟨m, s'.store⟩ =
      .ok (Text.Utf8.encode (script (s.machine.heap.bindings Heap.root))) ⟨m, s'.store⟩ := by
  have writable := writable_of_save saved
  rw [save, get_bind, takeWhile_writable writable, if_pos (by simpa using writable)] at saved
  change EStateM.bind _ _ s = _ at saved
  rw [EStateM.bind] at saved
  cases wrote : writeFile (Path.normalize path)
      (Text.Utf8.encode (script (s.machine.heap.bindings Heap.root))) s with
  | error e s₁ => rw [wrote] at saved; cases saved
  | ok a s₁ =>
    rw [wrote] at saved
    cases saved
    obtain ⟨named, read⟩ := readFile_eq_ok.mp (readFile_of_writeFile wrote)
    exact readFile_eq_ok.mpr ⟨named, read⟩

end SmallLisp.Session
