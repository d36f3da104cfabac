import Mathlib.Data.List.Nodup

namespace RoundRobin

variable {α β : Type*}

/-- One pass over a queue with a number of slots. Who has no answer leaves the queue, until the slots are used up; the
answers, in order, and those that were not reached. -/
def scan (answer : α → Option β) : Nat → List α → List (α × β) × List α
  | 0, queue => ([], queue)
  | _ + 1, [] => ([], [])
  | slots + 1, a :: queue =>
    match answer a with
    | none => scan answer (slots + 1) queue
    | some b => ((a, b) :: (scan answer slots queue).1, (scan answer slots queue).2)

/-- The queue after a pass: who was served goes to its end. -/
def turn (answer : α → Option β) (slots : Nat) (queue : List α) : List α :=
  (scan answer slots queue).2 ++ (scan answer slots queue).1.map Prod.fst

section

variable {answer : α → Option β}

theorem scan_none {slots : Nat} {a : α} {queue : List α} (ha : answer a = none) :
    scan answer (slots + 1) (a :: queue) = scan answer (slots + 1) queue := by
  simp only [scan, ha]

theorem scan_some {slots : Nat} {a : α} {b : β} {queue : List α} (ha : answer a = some b) :
    scan answer (slots + 1) (a :: queue) =
      ((a, b) :: (scan answer slots queue).1, (scan answer slots queue).2) := by
  simp only [scan, ha]

/-- The ones served are the first who have an answer. -/
theorem map_scan (slots : Nat) (queue : List α) :
    (scan answer slots queue).1.map Prod.fst = (queue.filter fun a => (answer a).isSome).take slots := by
  induction queue generalizing slots with
  | nil => cases slots <;> simp [scan]
  | cons a queue ih =>
    cases slots with
    | zero => simp [scan]
    | succ slots =>
      cases ha : answer a with
      | none =>
        rw [scan_none ha, ih, List.filter_cons_of_neg (by simp [ha])]
      | some b =>
        rw [scan_some ha, List.map_cons, ih, List.filter_cons_of_pos (by simp [ha]), List.take_succ_cons]

theorem answer_of_mem_scan {slots : Nat} {queue : List α} {a : α} {b : β} (h : (a, b) ∈ (scan answer slots queue).1) :
    answer a = some b := by
  induction queue generalizing slots with
  | nil => cases slots <;> simp [scan] at h
  | cons c queue ih =>
    cases slots with
    | zero => simp [scan] at h
    | succ slots =>
      cases hc : answer c with
      | none =>
        rw [scan_none hc] at h
        exact ih h
      | some d =>
        rw [scan_some hc, List.mem_cons] at h
        obtain h | h := h
        · cases h
          exact hc
        · exact ih h

/-- Nobody is served who was not in the queue, and nobody twice. -/
theorem scan_sublist (slots : Nat) (queue : List α) :
    List.Sublist ((scan answer slots queue).1.map Prod.fst ++ (scan answer slots queue).2) queue := by
  induction queue generalizing slots with
  | nil => cases slots <;> simp [scan]
  | cons a queue ih =>
    cases slots with
    | zero => simp [scan]
    | succ slots =>
      cases ha : answer a with
      | none =>
        rw [scan_none ha]
        exact (ih (slots + 1)).cons a
      | some b =>
        rw [scan_some ha, List.map_cons, List.cons_append]
        exact (ih slots).cons_cons a

theorem nodup_turn {slots : Nat} {queue : List α} (h : queue.Nodup) : (turn answer slots queue).Nodup :=
  List.nodup_append_comm.mp (h.sublist (scan_sublist slots queue))

theorem mem_of_mem_turn {slots : Nat} {queue : List α} {a : α} (h : a ∈ turn answer slots queue) : a ∈ queue := by
  rw [turn, List.mem_append, or_comm, ← List.mem_append] at h
  exact (scan_sublist slots queue).subset h

variable [DecidableEq α]

/-- Who has an answer and is not served has come nearer by all the slots, which are used up. -/
theorem scan_passes {slots : Nat} {queue : List α} {a : α} (ha : (answer a).isSome) (hmem : a ∈ queue)
    (hnot : a ∉ (scan answer slots queue).1.map Prod.fst) :
    (scan answer slots queue).1.length = slots ∧ a ∈ (scan answer slots queue).2 ∧
      (scan answer slots queue).2.idxOf a + slots ≤ queue.idxOf a := by
  induction queue generalizing slots with
  | nil => cases hmem
  | cons c queue ih =>
    cases slots with
    | zero => exact ⟨rfl, hmem, Nat.le_refl _⟩
    | succ slots =>
      cases hc : answer c with
      | none =>
        have hne : c ≠ a := by
          rintro rfl
          simp [hc] at ha
        rw [scan_none hc] at hnot ⊢
        obtain ⟨hfull, hrest, hidx⟩ := ih ((List.mem_cons.mp hmem).resolve_left hne.symm) hnot
        refine ⟨hfull, hrest, ?_⟩
        rw [List.idxOf_cons_ne queue hne]
        omega
      | some b =>
        rw [scan_some hc, List.map_cons, List.mem_cons, not_or] at hnot
        obtain ⟨hne, hnot⟩ := hnot
        obtain ⟨hfull, hrest, hidx⟩ := ih ((List.mem_cons.mp hmem).resolve_left hne) hnot
        rw [scan_some hc]
        refine ⟨by rw [List.length_cons, hfull], hrest, ?_⟩
        rw [List.idxOf_cons_ne queue (Ne.symm hne)]
        exact Nat.succ_le_succ hidx

/-- It stays in the queue, and nobody overtakes it. -/
theorem turn_passes {slots : Nat} {queue : List α} {a : α} (ha : (answer a).isSome) (hmem : a ∈ queue)
    (hnot : a ∉ (scan answer slots queue).1.map Prod.fst) :
    (scan answer slots queue).1.length = slots ∧ a ∈ turn answer slots queue ∧
      (turn answer slots queue).idxOf a + slots ≤ queue.idxOf a := by
  obtain ⟨hfull, hrest, hidx⟩ := scan_passes ha hmem hnot
  refine ⟨hfull, List.mem_append_left _ hrest, ?_⟩
  rw [turn, List.idxOf_append_of_mem hrest]
  exact hidx

/-- Who has an answer stays in the queue. -/
theorem mem_turn {slots : Nat} {queue : List α} {a : α} (ha : (answer a).isSome) (hmem : a ∈ queue) :
    a ∈ turn answer slots queue := by
  by_cases hserved : a ∈ (scan answer slots queue).1.map Prod.fst
  · exact List.mem_append_right _ hserved
  · exact (turn_passes ha hmem hserved).2.1

end

/-- When others leave a queue, nobody who stays falls back. -/
theorem idxOf_filter_le [DecidableEq α] {p : α → Bool} {a : α} (ha : p a = true) (queue : List α) :
    (queue.filter p).idxOf a ≤ queue.idxOf a := by
  induction queue with
  | nil => simp
  | cons b queue ih =>
    by_cases hba : b = a
    · subst hba
      simp [ha]
    · rw [List.idxOf_cons_ne queue hba]
      cases hb : p b with
      | false =>
        rw [List.filter_cons_of_neg (by simp [hb])]
        omega
      | true =>
        rw [List.filter_cons_of_pos hb, List.idxOf_cons_ne _ hba]
        omega

end RoundRobin
