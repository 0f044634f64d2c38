import SmallLisp.Value.Basic

/-! The bindings of one frame, in the order of their first definition since they were
last removed. Defining a bound name again keeps its place. -/
namespace SmallLisp

abbrev Bindings := List (String × Value)

namespace Bindings

def insert (name : String) (v : Value) : Bindings → Bindings
  | [] => [(name, v)]
  | (n, w) :: rest => if n = name then (name, v) :: rest else (n, w) :: insert name v rest

def erase (name : String) (b : Bindings) : Bindings := b.filter (·.1 ≠ name)

def get? (name : String) : Bindings → Option Value
  | [] => none
  | (n, v) :: rest => if n = name then some v else get? name rest

def names (b : Bindings) : List String := b.map (·.1)

/-- The bindings that a list of definitions leaves; a later one of a name counts. -/
def ofDefinitions (definitions : List (String × Value)) : Bindings :=
  definitions.foldl (fun b d => insert d.1 d.2 b) []

theorem get?_insert (name other : String) (v : Value) (b : Bindings) :
    (insert name v b).get? other = if name = other then some v else b.get? other := by
  induction b with
  | nil => simp [insert, get?]
  | cons d rest ih =>
    obtain ⟨n, w⟩ := d
    by_cases same : n = name
    · subst same; by_cases h : n = other <;> simp [insert, get?, h]
    · by_cases h : n = other
      · subst h; simp [insert, get?, same, Ne.symm same]
      · simp [insert, get?, same, h, ih]

theorem get?_erase (name other : String) (b : Bindings) :
    (erase name b).get? other = if name = other then none else b.get? other := by
  induction b with
  | nil => simp [erase, get?]
  | cons d rest ih =>
    obtain ⟨n, w⟩ := d
    by_cases same : n = name
    · subst same; by_cases h : n = other <;> simp_all [erase, get?]
    · by_cases h : n = other
      · subst h; simp_all [erase, get?, Ne.symm same]
      · simp_all [erase, get?]

end Bindings

end SmallLisp
