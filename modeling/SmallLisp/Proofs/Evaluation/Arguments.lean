import Mathlib.Data.List.Basic
import Mathlib.Data.List.Induction
import SmallLisp.Proofs.Environment.Visibility
import SmallLisp.Proofs.Value.Sound

/-! How a call binds its arguments. Every argument goes to one place: to the parameter of its
position, or with all later ones into the list for the name after the marker. Names may be
repeated, and then the last place of a name says what it is bound to. -/
namespace SmallLisp

namespace Bindings

variable {ds : List (String × Value)} {n : String} {v : Value}

theorem ofDefinitions_snoc (ds : List (String × Value)) (d : String × Value) :
    ofDefinitions (ds ++ [d]) = insert d.1 d.2 (ofDefinitions ds) := by
  rw [ofDefinitions, List.foldl_append]
  rfl

theorem names_ofDefinitions (ds : List (String × Value)) :
    (ofDefinitions ds).names = (ds.map Prod.fst).eraseDups := by
  induction ds using List.reverseRecOn with
  | nil => rfl
  | append_singleton ds d ih =>
    rw [ofDefinitions_snoc, names_insert, ih, List.map_append, List.eraseDups_append]
    by_cases bound : d.1 ∈ ds.map Prod.fst
    · simp [List.removeAll, bound]
    · simp [List.removeAll, bound]
      rfl

theorem get?_foldl_insert (free : n ∉ ds.map Prod.fst) (b : Bindings) :
    (ds.foldl (fun b d => insert d.1 d.2 b) b).get? n = b.get? n := by
  induction ds generalizing b with
  | nil => rfl
  | cons d ds ih =>
    obtain ⟨apart, free⟩ := List.ne_and_not_mem_of_not_mem_cons free
    rw [List.foldl_cons, ih free, get?_insert, if_neg (Ne.symm apart)]

/-- The last definition of a name is the one that counts. -/
theorem get?_ofDefinitions {i : Nat} (defined : ds[i]? = some (n, v))
    (last : n ∉ (ds.drop (i + 1)).map Prod.fst) : (ofDefinitions ds).get? n = some v := by
  obtain ⟨within, found⟩ := List.getElem?_eq_some_iff.mp defined
  have split : ds = ds.take i ++ (n, v) :: ds.drop (i + 1) := by
    rw [← found, List.getElem_cons_drop, List.take_append_drop]
  rw [split, ofDefinitions, List.foldl_append, List.foldl_cons, get?_foldl_insert last, get?_insert,
    if_pos rfl]

end Bindings

namespace Procedure

open Eval

variable {params : List String} {args : List Value} {p : String}

/-- As many arguments as parameters, or with a marker at least as many as are before it. -/
def Fits (params : List String) (args : List Value) : Prop :=
  (restMarker ∉ params → args.length = params.length) ∧
  (restMarker ∈ params → params.idxOf restMarker ≤ args.length)

theorem fixedCount_eq_length (plain : restMarker ∉ params) : fixedCount params = params.length :=
  List.idxOf_eq_length plain

theorem checkCount_of_fits (name : String) (fits : Fits params args) :
    checkCount name params args = .ok () := by
  by_cases present : restMarker ∈ params
  · have enough : fixedCount params ≤ args.length := fits.2 present
    simp [checkCount, isVariadic, present, enough]
  · simp [checkCount, isVariadic, present, fixedCount_eq_length present, fits.1 present]

theorem checkCount_of_not_fits (name : String) (misfit : ¬ Fits params args) :
    checkCount name params args = .error (.wrongCount name (fixedCount params) args.length) := by
  by_cases present : restMarker ∈ params
  · have few : ¬ fixedCount params ≤ args.length := fun enough =>
      misfit ⟨fun absent => absurd present absent, fun _ => enough⟩
    simp [checkCount, isVariadic, present, few]
  · have other : args.length ≠ params.length := fun same =>
      misfit ⟨fun _ => same, fun found => absurd found present⟩
    simp [checkCount, isVariadic, present, fixedCount_eq_length present, other]

/-- The names that a call binds, each at its place. -/
def places (params : List String) : List String := params.erase restMarker

/-- What the places are given, and after that what is left of the arguments. -/
def given (params : List String) (args : List Value) : List Value :=
  args.take (fixedCount params) ++ [.list (args.drop (fixedCount params))]

theorem BindsWell.tail (placed : BindsWell (p :: params)) (other : p ≠ restMarker) :
    BindsWell params := by
  intro present
  have whole := placed (List.mem_cons_of_mem p present)
  rw [List.idxOf_cons_ne params other, List.length_cons] at whole
  omega

theorem fits_cons {a : Value} (other : p ≠ restMarker) (fits : Fits (p :: params) (a :: args)) :
    Fits params args := by
  constructor
  · intro plain
    have same := fits.1 (by simp [plain, Ne.symm other])
    exact Nat.succ.inj same
  · intro present
    have enough := fits.2 (List.mem_cons_of_mem p present)
    rw [List.idxOf_cons_ne params other] at enough
    exact Nat.le_of_succ_le_succ enough

/-- The parameters in turn are given the arguments in turn. -/
theorem pairUp_eq (name : String) (placed : BindsWell params) (fits : Fits params args) :
    pairUp name params args = .ok ((places params).zip (given params args)) := by
  induction params generalizing args with
  | nil => rfl
  | cons p params ih =>
    by_cases marker : p = restMarker
    · subst marker
      have two := placed List.mem_cons_self
      rw [List.idxOf_cons_self, List.length_cons] at two
      obtain ⟨rest, rfl⟩ := List.length_eq_one_iff.mp (Nat.succ.inj two).symm
      simp [pairUp, places, given, fixedCount]
    · cases args with
      | nil =>
        exfalso
        by_cases present : restMarker ∈ p :: params
        · have enough := fits.2 present
          rw [List.idxOf_cons_ne params marker] at enough
          exact Nat.not_succ_le_zero _ enough
        · exact absurd (fits.1 present) (Nat.succ_ne_zero _).symm
      | cons a args =>
        have later := ih (placed.tail marker) (fits_cons marker fits)
        simp only [pairUp, if_neg marker, later]
        have names : places (p :: params) = p :: places params := by
          simp [places, marker]
        have values : given (p :: params) (a :: args) = a :: given params args := by
          simp [given, fixedCount, List.idxOf_cons_ne params marker]
        rw [names, values]
        rfl

theorem Fits.fixedCount_le (fits : Fits params args) : fixedCount params ≤ args.length := by
  by_cases present : restMarker ∈ params
  · exact fits.2 present
  · exact Nat.le_of_eq ((fixedCount_eq_length present).trans (fits.1 present).symm)

theorem length_places_le (placed : BindsWell params) :
    (places params).length ≤ fixedCount params + 1 := by
  rw [places, List.length_erase]
  split
  · next present =>
    have two : fixedCount params + 2 = params.length := placed present
    omega
  · next plain =>
    rw [fixedCount_eq_length plain]
    exact Nat.le_succ _

theorem length_given (fits : Fits params args) :
    (given params args).length = fixedCount params + 1 := by
  simp [given, fits.fixedCount_le]

theorem getElem?_given (fits : Fits params args) {i : Nat} (within : i ≤ fixedCount params) :
    (given params args)[i]? =
      if i < fixedCount params then args[i]? else some (.list (args.drop (fixedCount params))) := by
  have length : (args.take (fixedCount params)).length = fixedCount params := by
    simp [fits.fixedCount_le]
  rw [given]
  split
  · next before =>
    rw [List.getElem?_append_left (by rwa [length]), List.getElem?_take_of_lt before]
  · next beyond =>
    obtain rfl : i = fixedCount params := Nat.le_antisymm within (Nat.le_of_not_lt beyond)
    rw [List.getElem?_append_right (Nat.le_of_eq length), length]
    simp

/-- The bindings of the new frame. -/
def bound (params : List String) (args : List Value) : Bindings :=
  .ofDefinitions ((places params).zip (given params args))

theorem bind_of_fits (name : String) (placed : BindsWell params) (fits : Fits params args) :
    bind name params args = .ok (bound params args) := by
  rw [bind, checkCount_of_fits name fits, pairUp_eq name placed fits]
  rfl

theorem bind_of_not_fits (name : String) (misfit : ¬ Fits params args) :
    bind name params args = .error (.wrongCount name (fixedCount params) args.length) := by
  rw [bind, checkCount_of_not_fits name misfit]
  rfl

section

variable (placed : BindsWell params) (fits : Fits params args)

include placed fits

theorem length_places_le_given : (places params).length ≤ (given params args).length := by
  rw [length_given fits]
  exact length_places_le placed

theorem names_bound : (bound params args).names = (places params).eraseDups := by
  rw [bound, Bindings.names_ofDefinitions,
    List.map_fst_zip (length_places_le_given placed fits)]

theorem get?_bound {i : Nat} {n : String} (at_ : (places params)[i]? = some n)
    (last : n ∉ (places params).drop (i + 1)) :
    (bound params args).get? n = (given params args)[i]? := by
  have enough := length_places_le_given placed fits
  have within : i < (places params).length := (List.getElem?_eq_some_iff.mp at_).1
  have value := List.getElem?_eq_getElem (Nat.lt_of_lt_of_le within enough)
  rw [value]
  refine Bindings.get?_ofDefinitions (List.getElem?_zip_eq_some.mpr ⟨at_, value⟩) ?_
  rwa [List.map_drop, List.map_fst_zip enough]

end

theorem extend_of_fits (name : String) (placed : BindsWell params) (fits : Fits params args)
    (captured : FrameId) (m : Machine) :
    extend name params args captured m =
      .ok m.heap.next { m with heap := m.heap.push ⟨bound params args, some captured⟩ } := by
  rw [extend, bind_of_fits name placed fits]
  rfl

theorem extend_of_not_fits (name : String) (misfit : ¬ Fits params args) (captured : FrameId)
    (m : Machine) : extend name params args captured m =
      .error (.wrongCount name (fixedCount params) args.length) m := by
  rw [extend, bind_of_not_fits name misfit]
  rfl

theorem not_fits_iff : ¬ Fits params args ↔
    restMarker ∉ params ∧ args.length ≠ params.length ∨
      restMarker ∈ params ∧ args.length < params.idxOf restMarker := by
  by_cases present : restMarker ∈ params
  · simp [Fits, present]
  · simp [Fits, present]

/-- A call fails, and leaves everything as it is, if there are not as many arguments as parameters,
or fewer than there are before the marker, and otherwise never. It makes one frame, inside the one
that was captured, and changes no frame. Each fixed parameter is bound to the argument of its
position, and the name after the marker to the list of all arguments from there on. Of a name that
is repeated the last place counts, and the first one for the order of the names. -/
theorem extend_binds_each_argument (name : String) {params : List String}
    (placed : BindsWell params) (args : List Value) (captured : FrameId) (m : Machine) :
    let count := params.idxOf restMarker
    let names := params.erase restMarker
    (∀ e m', extend name params args captured m = .error e m' ↔ m' = m ∧
      (restMarker ∉ params ∧ args.length ≠ params.length ∧
          e = .wrongCount name params.length args.length ∨
        restMarker ∈ params ∧ args.length < count ∧ e = .wrongCount name count args.length)) ∧
    ((restMarker ∉ params → args.length = params.length) →
      (restMarker ∈ params → count ≤ args.length) →
      ∃ b, extend name params args captured m =
          .ok m.heap.next { m with heap := m.heap.push ⟨b, some captured⟩ } ∧
        (∀ g, g ≠ m.heap.next →
          (m.heap.push ⟨b, some captured⟩).frames[g]? = m.heap.frames[g]?) ∧
        b.names = names.eraseDups ∧
        ∀ i n, names[i]? = some n → n ∉ names.drop (i + 1) →
          b.get? n = if i < count then args[i]? else some (.list (args.drop count))) := by
  intro count names
  refine ⟨fun e m' => ⟨fun failed => ?_, ?_⟩, fun plain variadic => ?_⟩
  · by_cases fits : Fits params args
    · rw [extend_of_fits name placed fits] at failed
      cases failed
    · rw [extend_of_not_fits name fits] at failed
      cases failed
      refine ⟨rfl, (not_fits_iff.mp fits).imp ?_ ?_⟩
      · rintro ⟨absent, other⟩
        exact ⟨absent, other, by rw [fixedCount_eq_length absent]⟩
      · rintro ⟨present, few⟩
        exact ⟨present, few, rfl⟩
  · rintro ⟨rfl, ⟨absent, other, rfl⟩ | ⟨present, few, rfl⟩⟩
    · rw [extend_of_not_fits name (not_fits_iff.mpr (.inl ⟨absent, other⟩)),
        fixedCount_eq_length absent]
    · exact extend_of_not_fits name (not_fits_iff.mpr (.inr ⟨present, few⟩)) captured m'
  · have fits : Fits params args := ⟨plain, variadic⟩
    refine ⟨bound params args, extend_of_fits name placed fits captured m, fun g old => ?_,
      names_bound placed fits, fun i n at_ last => ?_⟩
    · rw [Heap.frames_push, if_neg old]
    · have within : i < names.length := (List.getElem?_eq_some_iff.mp at_).1
      have place : i ≤ count :=
        Nat.le_of_lt_succ (Nat.lt_of_lt_of_le within (length_places_le placed))
      rw [get?_bound placed fits at_ last]
      exact getElem?_given fits place

/-- Of three fixed parameters the first and the third have one name, and the second has that of the
list of the others. With two arguments the call fails. -/
theorem extend_binds_each_argument_repeated :
    let params := ["x", "y", "x", ".", "y"]
    let args : List Value := [.int 1, .int 2, .int 3, .int 4, .int 5]
    let m := Machine.initial
    BindsWell params ∧
    (∃ b, extend "f" params args 0 m = .ok 1 { m with heap := m.heap.push ⟨b, some 0⟩ } ∧
      b.names = ["x", "y"] ∧ b.get? "x" = some (.int 3) ∧
      b.get? "y" = some (.list [.int 4, .int 5])) ∧
    extend "f" params (args.take 2) 0 m = .error (.wrongCount "f" 3 2) m := by
  intro params args m
  have placed : BindsWell params := fun _ => rfl
  obtain ⟨-, binds⟩ := extend_binds_each_argument "f" placed args 0 m
  obtain ⟨fails, -⟩ := extend_binds_each_argument "f" placed (args.take 2) 0 m
  obtain ⟨b, made, -, names, values⟩ := binds (by decide) (by decide)
  refine ⟨placed, ⟨b, made, names, ?_, ?_⟩, ?_⟩
  · exact values 2 "x" rfl (by decide)
  · exact values 3 "y" rfl (by decide)
  · exact (fails _ _).mpr ⟨rfl, .inr ⟨by decide, by decide, rfl⟩⟩

end Procedure

end SmallLisp
