import Mathlib.Algebra.BigOperators.Group.Finset.Piecewise
import Mathlib.Data.Fintype.Defs

namespace Monitor

section Counting

variable {κ α : Type*} [Fintype κ] [DecidableEq κ]

/-- The total weight when one thread moves. -/
theorem sum_update (weight : α → Nat) (f : κ → α) (k : κ) (a : α) :
    ∑ i, weight (Function.update f k a i) + weight (f k) = ∑ i, weight (f i) + weight a := by
  have hmoved : (fun i => weight (Function.update f k a i)) = Function.update (weight ∘ f) k (weight a) :=
    Function.comp_update weight f k a
  have hafter := Finset.sum_update_of_mem (Finset.mem_univ k) (weight ∘ f) (weight a)
  have hbefore := Finset.sum_update_of_mem (Finset.mem_univ k) (weight ∘ f) (weight (f k))
  rw [show weight (f k) = (weight ∘ f) k from rfl, Function.update_eq_self] at hbefore
  rw [hmoved, hafter]
  simp only [Function.comp_apply] at hbefore ⊢
  omega

end Counting

section Mutex

variable {T : Type*} [DecidableEq T] {inside : T → Bool}

/-- The mutex is owned by the one thread that stands inside it, if there is one. -/
def Exclusive (owner : Option T) (inside : T → Bool) : Prop := ∀ t, inside t = true ↔ owner = some t

omit [DecidableEq T] in
theorem Exclusive.outside {t u : T} (h : Exclusive (some t) inside) (hne : u ≠ t) : inside u = false := by
  rw [← Bool.not_eq_true, h u, Option.some.injEq]
  exact Ne.symm hne

theorem Exclusive.stay {owner : Option T} (h : Exclusive owner inside) {t : T} {b : Bool} (hb : b = inside t) :
    Exclusive owner (Function.update inside t b) := by
  rw [hb, Function.update_eq_self]
  exact h

theorem Exclusive.acquire (h : Exclusive none inside) (t : T) : Exclusive (some t) (Function.update inside t true) := by
  intro u
  by_cases hu : u = t
  · simp [hu]
  · have houtside := h u
    simp only [Function.update_of_ne hu, houtside, Option.some.injEq]
    simpa using Ne.symm hu

theorem Exclusive.release {t : T} (h : Exclusive (some t) inside) : Exclusive none (Function.update inside t false) := by
  intro u
  by_cases hu : u = t
  · simp [hu]
  · simp [Function.update_of_ne hu, h.outside hu]

end Mutex

/-- How a thread stands to a condition variable. Between its entry into the mutex and its use of what it has
been waiting for it is `checking`. -/
inductive Stand where
  | away
  | checking
  | waiting
  | woken
  deriving DecidableEq, Repr

namespace Stand

/-- The thread is going to look at what is available. -/
def coming : Stand → Nat
  | .checking => 1
  | .woken => 1
  | _ => 0

end Stand

section Condition

variable {κ : Type*} [Fintype κ] {stand : κ → Stand}

/-- `notify_one` wakes some waiting thread, and nobody if nobody waits. -/
def Notifies (stand : κ → Stand) : Option κ → Prop
  | some k => stand k = .waiting
  | none => ∀ k, stand k ≠ .waiting

instance Notifies.decidable (stand : κ → Stand) : ∀ wake, Decidable (Notifies stand wake)
  | some k => inferInstanceAs (Decidable (stand k = .waiting))
  | none => inferInstanceAs (Decidable (∀ k, stand k ≠ .waiting))

theorem exists_notifies (stand : κ → Stand) : ∃ wake, Notifies stand wake := by
  by_cases hwaiting : ∃ k, stand k = .waiting
  · obtain ⟨k, hk⟩ := hwaiting
    exact ⟨some k, hk⟩
  · exact ⟨none, fun k hk => hwaiting ⟨k, hk⟩⟩

/-- The threads after a `notify_one` that has woken `wake`. -/
def wakeOne [DecidableEq κ] (stand : κ → Stand) : Option κ → κ → Stand
  | some k => Function.update stand k .woken
  | none => stand

/-- No wakeup is lost: while some thread waits, there is a thread on its way, or a notification still owed, for
everything available. -/
def NoLostWakeup (stand : κ → Stand) (available owed : Nat) : Prop :=
  (∃ k, stand k = .waiting) → available ≤ ∑ k, (stand k).coming + owed

theorem NoLostWakeup.of_zero (stand : κ → Stand) (owed : Nat) : NoLostWakeup stand 0 owed :=
  fun _ => Nat.zero_le _

theorem NoLostWakeup.of_none (hnone : ∀ k, stand k ≠ .waiting) (available owed : Nat) :
    NoLostWakeup stand available owed :=
  fun ⟨k, hk⟩ => (hnone k hk).elim

theorem NoLostWakeup.mono {available available' owed owed' : Nat} (h : NoLostWakeup stand available owed)
    (hle : available' + owed ≤ available + owed') : NoLostWakeup stand available' owed' := by
  intro hwaiting
  have hcovered := h hwaiting
  omega

/-- A thread that does not begin to wait may take away what it came for. -/
theorem NoLostWakeup.update [DecidableEq κ] {available available' owed owed' : Nat}
    (h : NoLostWakeup stand available owed) {k : κ} {new : Stand} (hnew : new ≠ .waiting)
    (hle : available' + (stand k).coming + owed ≤ available + new.coming + owed') :
    NoLostWakeup (Function.update stand k new) available' owed' := by
  rintro ⟨i, hi⟩
  have hwaiting : ∃ i, stand i = .waiting := by
    by_cases hik : i = k
    · rw [hik, Function.update_self] at hi
      exact (hnew hi).elim
    · rw [Function.update_of_ne hik] at hi
      exact ⟨i, hi⟩
  have hcovered := h hwaiting
  have hsum := sum_update Stand.coming stand k new
  omega

/-- A notification settles a debt: it puts a thread on its way, or nobody needs it. -/
theorem NoLostWakeup.notify [DecidableEq κ] {available owed owed' : Nat} (h : NoLostWakeup stand available owed)
    {wake : Option κ} (hwake : Notifies stand wake) (howed : owed ≤ owed' + 1) :
    NoLostWakeup (wakeOne stand wake) available owed' := by
  cases wake with
  | none => exact .of_none hwake available owed'
  | some k =>
    have hwaiting : stand k = .waiting := hwake
    refine h.update (by simp) ?_
    rw [hwaiting]
    simp only [Stand.coming]
    omega

end Condition

end Monitor
