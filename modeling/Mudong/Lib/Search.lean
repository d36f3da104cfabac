import Mathlib.Data.List.Infix

namespace Search

variable {α : Type*}

/-- The pattern stands in the list from position `i` on. -/
def Occurs (pattern l : List α) (i : Nat) : Prop := pattern <+: l.drop i

/-- What a search for the first occurrence should answer. -/
def IsFirst (pattern l : List α) : Option Nat → Prop
  | some i => Occurs pattern l i ∧ ∀ j < i, ¬Occurs pattern l j
  | none => ∀ j, ¬Occurs pattern l j

theorem Occurs.add_length_le {pattern l : List α} {i : Nat} (h : Occurs pattern l i) (hpattern : pattern ≠ []) :
    i + pattern.length ≤ l.length := by
  have hlength := h.length_le
  have hpos := List.length_pos_iff.mpr hpattern
  rw [List.length_drop] at hlength
  omega

/-- Where a pattern stands, the list is split by it. -/
theorem Occurs.split {pattern l : List α} {i : Nat} (h : Occurs pattern l i) :
    l = l.take i ++ (pattern ++ l.drop (i + pattern.length)) := by
  obtain ⟨rest, hrest⟩ := h
  have hdrop : l.drop (i + pattern.length) = rest := by
    rw [← List.drop_drop, ← hrest, List.drop_left]
  rw [hdrop, hrest, List.take_append_drop]

theorem Occurs.append {pattern l : List α} {i : Nat} (h : Occurs pattern l i) (hpattern : pattern ≠ [])
    (m : List α) : Occurs pattern (l ++ m) i := by
  have hle := h.add_length_le hpattern
  rw [Occurs, List.drop_append_of_le_length (by omega)]
  exact h.trans (List.prefix_append _ _)

/-- An occurrence that ends inside the first part is one of the first part. -/
theorem Occurs.of_append {pattern l m : List α} {i : Nat} (h : Occurs pattern (l ++ m) i)
    (hle : i + pattern.length ≤ l.length) : Occurs pattern l i := by
  rw [Occurs, List.drop_append_of_le_length (by omega)] at h
  refine List.prefix_of_prefix_length_le h (List.prefix_append _ _) ?_
  rw [List.length_drop]
  omega

theorem occurs_drop {pattern l : List α} {k i : Nat} : Occurs pattern (l.drop k) i ↔ Occurs pattern l (k + i) := by
  rw [Occurs, Occurs, List.drop_drop]

theorem IsFirst.unique {pattern l : List α} {r s : Option Nat} (hr : IsFirst pattern l r) (hs : IsFirst pattern l s) :
    r = s := by
  match r, s with
  | none, none => rfl
  | none, some j => exact (hr j hs.1).elim
  | some i, none => exact (hs i hr.1).elim
  | some i, some j =>
    have hij : ¬i < j := fun hlt => hs.2 i hlt hr.1
    have hji : ¬j < i := fun hlt => hr.2 j hlt hs.1
    exact congrArg some (by omega)

/-- A first occurrence stays the first one when the list grows at its end. -/
theorem IsFirst.append {pattern l : List α} {i : Nat} (h : IsFirst pattern l (some i)) (hpattern : pattern ≠ [])
    (m : List α) : IsFirst pattern (l ++ m) (some i) := by
  refine ⟨h.1.append hpattern m, fun j hj hoccurs => h.2 j hj (hoccurs.of_append ?_)⟩
  have hle := h.1.add_length_le hpattern
  omega

/-- A search of the longer list may skip the positions at which the old list had room for the whole pattern. -/
theorem IsFirst.resume {pattern l m : List α} {k : Nat} {r : Option Nat} (hnone : IsFirst pattern l none)
    (hk : k = 0 ∨ k + pattern.length ≤ l.length + 1) (hr : IsFirst pattern ((l ++ m).drop k) r) :
    IsFirst pattern (l ++ m) (r.map (k + ·)) := by
  have hbefore : ∀ j < k, ¬Occurs pattern (l ++ m) j := by
    intro j hj hoccurs
    exact hnone j (hoccurs.of_append (by omega))
  match r with
  | none =>
    intro j hoccurs
    obtain hlt | hle := Nat.lt_or_ge j k
    · exact hbefore j hlt hoccurs
    · refine hr (j - k) (occurs_drop.mpr ?_)
      rwa [Nat.add_sub_cancel' hle]
  | some i =>
    refine ⟨occurs_drop.mp hr.1, fun j hj hoccurs => ?_⟩
    have hj : j < k + i := hj
    obtain hlt | hle := Nat.lt_or_ge j k
    · exact hbefore j hlt hoccurs
    · refine hr.2 (j - k) (by omega) (occurs_drop.mpr ?_)
      rwa [Nat.add_sub_cancel' hle]

/-- The part before a first occurrence does not contain the pattern. -/
theorem IsFirst.not_occurs_take {pattern l : List α} {i : Nat} (h : IsFirst pattern l (some i))
    (hpattern : pattern ≠ []) (j : Nat) : ¬Occurs pattern (l.take i) j := by
  intro hoccurs
  have hpos := List.length_pos_iff.mpr hpattern
  have hle := hoccurs.add_length_le hpattern
  have hshort : (l.take i).length ≤ i := List.length_take_le _ _
  have hwhole := hoccurs.append hpattern (l.drop i)
  rw [List.take_append_drop] at hwhole
  exact h.2 j (by omega) hwhole

theorem isFirst_cons {pattern xs : List α} {x : α} {r : Option Nat} (hhead : ¬pattern <+: x :: xs)
    (h : IsFirst pattern xs r) : IsFirst pattern (x :: xs) (r.map (1 + ·)) := by
  have hzero : ¬Occurs pattern (x :: xs) 0 := hhead
  match r with
  | none =>
    intro j hoccurs
    cases j with
    | zero => exact hzero hoccurs
    | succ j => exact h j hoccurs
  | some i =>
    refine ⟨?_, ?_⟩
    · change Occurs pattern (x :: xs) (1 + i)
      rw [Nat.add_comm]
      exact h.1
    · intro j hj hoccurs
      have hj : j < 1 + i := hj
      cases j with
      | zero => exact hzero hoccurs
      | succ j => exact h.2 j (by omega) hoccurs

variable [DecidableEq α]

/-- `std::search` on the whole of two ranges: the position of the first occurrence, or the end. -/
def search (pattern : List α) : List α → Nat
  | [] => 0
  | x :: xs => if pattern <+: x :: xs then 0 else search pattern xs + 1

/-- The search finds the first occurrence, and answers the end of the list when there is none. -/
theorem search_isFirst {pattern : List α} (hpattern : pattern ≠ []) (l : List α) :
    IsFirst pattern l (if search pattern l = l.length then none else some (search pattern l)) := by
  induction l with
  | nil =>
    intro j hoccurs
    have hle := hoccurs.add_length_le hpattern
    have hpos := List.length_pos_iff.mpr hpattern
    rw [List.length_nil] at hle
    omega
  | cons x xs ih =>
    by_cases hhead : pattern <+: x :: xs
    · have hsearch : search pattern (x :: xs) = 0 := if_pos hhead
      rw [hsearch, if_neg (by simp)]
      exact ⟨hhead, fun j hj => (Nat.not_lt_zero j hj).elim⟩
    · have hsearch : search pattern (x :: xs) = search pattern xs + 1 := if_neg hhead
      have hcons := isFirst_cons hhead ih
      rw [hsearch, List.length_cons]
      by_cases hend : search pattern xs = xs.length
      · simpa [hend] using hcons
      · rw [if_neg (by omega), Nat.add_comm]
        simpa [hend] using hcons

/-- So does the search for a single element. -/
theorem idxOf?_isFirst (a : α) (l : List α) : IsFirst [a] l (l.idxOf? a) := by
  induction l with
  | nil =>
    intro j hoccurs
    simp [Occurs] at hoccurs
  | cons x xs ih =>
    by_cases hhead : x = a
    · subst hhead
      rw [List.idxOf?_cons, if_pos (by simp)]
      exact ⟨⟨xs, rfl⟩, fun j hj => (Nat.not_lt_zero j hj).elim⟩
    · have hprefix : ¬[a] <+: x :: xs := by
        rw [List.cons_prefix_cons]
        exact fun h => hhead h.1.symm
      have hcons := isFirst_cons hprefix ih
      rw [List.idxOf?_cons, if_neg (by simpa using hhead)]
      simpa only [Nat.add_comm] using hcons

end Search
