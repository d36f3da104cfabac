import Mathlib.Data.List.Range
import Mathlib.Logic.Function.Basic

/-- Objects that live as long as something refers to them, by the number of their construction. -/
structure Shared (α : Type*) where
  made : Nat
  object : Nat → Option α

namespace Shared

variable {α : Type*}

def empty : Shared α := { made := 0, object := fun _ => none }

/-- A new object; its number is `s.made`. -/
def make (s : Shared α) (a : α) : Shared α :=
  { made := s.made + 1, object := Function.update s.object s.made (some a) }

def set (s : Shared α) (i : Nat) (a : α) : Shared α := { s with object := Function.update s.object i (some a) }

/-- The objects that nothing in `refs` refers to. -/
def swept (s : Shared α) (refs : List Nat) : List (Nat × α) :=
  (List.range s.made).filterMap fun i => if i ∈ refs then none else (s.object i).map fun a => (i, a)

/-- What is left when those objects are destroyed. -/
def sweep (s : Shared α) (refs : List Nat) : Shared α :=
  { s with object := fun i => if i ∈ refs then s.object i else none }

/-- Every object has been made. -/
def Counted (s : Shared α) : Prop := ∀ i a, s.object i = some a → i < s.made

theorem set_object (s : Shared α) (i : Nat) (a : α) (j : Nat) :
    (s.set i a).object j = if j = i then some a else s.object j := Function.update_apply ..

@[simp] theorem set_object_self (s : Shared α) (i : Nat) (a : α) : (s.set i a).object i = some a :=
  Function.update_self ..

theorem set_object_of_ne (s : Shared α) {i j : Nat} (hne : j ≠ i) (a : α) : (s.set i a).object j = s.object j :=
  Function.update_of_ne hne ..

@[simp] theorem make_object_made (s : Shared α) (a : α) : (s.make a).object s.made = some a :=
  Function.update_self ..

theorem make_object_of_ne (s : Shared α) {i : Nat} (hne : i ≠ s.made) (a : α) : (s.make a).object i = s.object i :=
  Function.update_of_ne hne ..

/-- A change to a new object is a change to what was made. -/
theorem make_set (s : Shared α) (a b : α) : (s.make a).set s.made b = s.make b := by
  simp only [make, set, Function.update_idem]

theorem empty_counted : (empty : Shared α).Counted := by
  intro i a hi
  cases hi

theorem Counted.sweep {s : Shared α} (h : s.Counted) (refs : List Nat) : (s.sweep refs).Counted := by
  intro i a hi
  simp only [Shared.sweep, Option.ite_none_right_eq_some] at hi
  exact h i a hi.2

/-- A number that has not been given out yet has no object. -/
theorem Counted.object_made {s : Shared α} (h : s.Counted) : s.object s.made = none := by
  cases hmade : s.object s.made with
  | none => rfl
  | some a => exact absurd (h s.made a hmade) (Nat.lt_irrefl _)

/-- What survives is referred to, and is as it was. -/
theorem sweep_eq_some {s : Shared α} {refs : List Nat} {i : Nat} {a : α} :
    (s.sweep refs).object i = some a ↔ i ∈ refs ∧ s.object i = some a := by
  simp only [sweep, Option.ite_none_right_eq_some]

/-- What is destroyed existed, and nothing referred to it. -/
theorem of_mem_swept {s : Shared α} {refs : List Nat} {p : Nat × α} (h : p ∈ s.swept refs) :
    p.1 ∉ refs ∧ s.object p.1 = some p.2 := by
  simp only [swept, List.mem_filterMap, Option.ite_none_left_eq_some, Option.map_eq_some_iff] at h
  obtain ⟨i, _, hnot, a, ha, rfl⟩ := h
  exact ⟨hnot, ha⟩

/-- Everything that nothing refers to is destroyed. -/
theorem Counted.mem_swept {s : Shared α} (hcounted : s.Counted) {refs : List Nat} {i : Nat} {a : α} (hnot : i ∉ refs)
    (ha : s.object i = some a) : (i, a) ∈ s.swept refs := by
  simp only [swept, List.mem_filterMap, Option.ite_none_left_eq_some, Option.map_eq_some_iff]
  exact ⟨i, List.mem_range.mpr (hcounted i a ha), hnot, a, ha, rfl⟩

end Shared
