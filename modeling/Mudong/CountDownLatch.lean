import Mudong.Lib.Monitor
import Mudong.Lib.Run

namespace mudong.ev

/-- Where a thread stands in `wait`. It owns `mutex_` in `testing`, `sleeping` and `returning`. -/
inductive WaiterPc where
  | idle
  | locking
  | testing
  | sleeping
  | waiting
  | woken
  | returning
  | returned
  deriving DecidableEq, Repr

namespace WaiterPc

def inside : WaiterPc → Bool
  | .testing => true
  | .sleeping => true
  | .returning => true
  | _ => false

def wake : WaiterPc → WaiterPc
  | .waiting => .woken
  | pc => pc

end WaiterPc

/-- Where a thread stands in `count`. It owns `mutex_` from `counting` on. -/
inductive CounterPc where
  | idle
  | locking
  | counting
  | testing
  | notifying
  | returning
  deriving DecidableEq, Repr

def CounterPc.inside : CounterPc → Bool
  | .idle => false
  | .locking => false
  | _ => true

inductive LatchThread (ι κ : Type) where
  | waiter (i : ι)
  | counter (k : κ)
  deriving DecidableEq, Repr

/-- The latch with any number of threads that wait for it and of threads that count it down. `counts` is the
number of decrements made so far. -/
structure CountDownLatch (ι κ : Type) where
  count_ : Int
  mutex_ : Option (LatchThread ι κ)
  waiters : ι → WaiterPc
  counters : κ → CounterPc
  counts : Nat

/-- The beginning of a call, the next step of a thread in its call, or a spurious wakeup. -/
inductive LatchLabel (ι κ : Type) where
  | wait (i : ι)
  | waiter (i : ι)
  | spurious (i : ι)
  | count (k : κ)
  | counter (k : κ)
  deriving DecidableEq, Repr

namespace CountDownLatch

variable {ι κ : Type}

def init (count_ : Int) : CountDownLatch ι κ :=
  { count_, mutex_ := none, waiters := fun _ => .idle, counters := fun _ => .idle, counts := 0 }

/-- `thread` has locked `mutex_` and is inside it. -/
def inside (latch : CountDownLatch ι κ) : LatchThread ι κ → Bool
  | .waiter i => (latch.waiters i).inside
  | .counter k => (latch.counters k).inside

variable [DecidableEq ι] [DecidableEq κ]

def setWaiter (latch : CountDownLatch ι κ) (i : ι) (pc : WaiterPc) : CountDownLatch ι κ :=
  { latch with waiters := Function.update latch.waiters i pc }

def setCounter (latch : CountDownLatch ι κ) (k : κ) (pc : CounterPc) : CountDownLatch ι κ :=
  { latch with counters := Function.update latch.counters k pc }

/-- The next step of a thread in `wait`. -/
def waiterStep (latch : CountDownLatch ι κ) (i : ι) : Option (CountDownLatch ι κ) :=
  match latch.waiters i with
  | .idle => none
  | .locking =>
    if latch.mutex_ = none then some { latch.setWaiter i .testing with mutex_ := some (.waiter i) } else none
  | .testing => some (latch.setWaiter i (if 0 < latch.count_ then .sleeping else .returning))
  | .sleeping => some { latch.setWaiter i .waiting with mutex_ := none }
  | .waiting => none
  | .woken =>
    if latch.mutex_ = none then some { latch.setWaiter i .testing with mutex_ := some (.waiter i) } else none
  | .returning => some { latch.setWaiter i .returned with mutex_ := none }
  | .returned => none

/-- The next step of a thread in `count`. -/
def counterStep (latch : CountDownLatch ι κ) (k : κ) : Option (CountDownLatch ι κ) :=
  match latch.counters k with
  | .idle => none
  | .locking =>
    if latch.mutex_ = none then some { latch.setCounter k .counting with mutex_ := some (.counter k) } else none
  | .counting =>
    some { latch.setCounter k .testing with count_ := latch.count_ - 1, counts := latch.counts + 1 }
  | .testing => some (latch.setCounter k (if latch.count_ ≤ 0 then .notifying else .returning))
  | .notifying => some { latch.setCounter k .returning with waiters := fun i => (latch.waiters i).wake }
  | .returning => some { latch.setCounter k .idle with mutex_ := none }

def step (latch : CountDownLatch ι κ) : LatchLabel ι κ → Option (CountDownLatch ι κ)
  | .wait i =>
    if latch.waiters i = .idle ∨ latch.waiters i = .returned then some (latch.setWaiter i .locking) else none
  | .waiter i => latch.waiterStep i
  | .spurious i => if latch.waiters i = .waiting then some (latch.setWaiter i .woken) else none
  | .count k => if latch.counters k = .idle then some (latch.setCounter k .locking) else none
  | .counter k => latch.counterStep k

end CountDownLatch

/-- What a thread in `wait` has seen of the count still holds. -/
def WaiterPc.Fits (count_ : Int) : WaiterPc → Prop
  | .sleeping => 0 < count_
  | .returning => count_ ≤ 0
  | .returned => count_ ≤ 0
  | _ => True

theorem WaiterPc.Fits.wake {pc : WaiterPc} {count_ : Int} (h : pc.Fits count_) : pc.wake.Fits count_ := by
  cases pc with
  | waiting => trivial
  | _ => exact h

@[simp] theorem WaiterPc.inside_wake (pc : WaiterPc) : pc.wake.inside = pc.inside := by
  cases pc <;> rfl

theorem WaiterPc.wake_ne_waiting (pc : WaiterPc) : pc.wake ≠ .waiting := by
  cases pc <;> simp [WaiterPc.wake]

/-- The thread has counted the latch down and not yet notified. -/
def CounterPc.owes : CounterPc → Bool
  | .testing => true
  | .notifying => true
  | _ => false

theorem CounterPc.inside_of_owes {pc : CounterPc} (h : pc.owes = true) : pc.inside = true := by
  cases pc with
  | testing => rfl
  | notifying => rfl
  | _ => cases h

namespace CountDownLatch

variable {ι κ : Type}

/-- The mutex excludes, what the threads in `wait` have seen is so, and nobody waits at an open latch but for a
notification that is still to come. -/
structure LatchInv (count : Int) (latch : CountDownLatch ι κ) : Prop where
  exclusive : Monitor.Exclusive latch.mutex_ latch.inside
  counted : latch.count_ = count - latch.counts
  waiters : ∀ i, (latch.waiters i).Fits latch.count_
  roused : latch.count_ ≤ 0 → (∃ i, latch.waiters i = .waiting) → ∃ k, (latch.counters k).owes = true

theorem init_latchInv (count : Int) : LatchInv count (init count : CountDownLatch ι κ) := by
  refine ⟨fun t => ?_, ?_, fun _ => trivial, ?_⟩
  · cases t <;> simp [init, inside, WaiterPc.inside, CounterPc.inside]
  · simp [init]
  · rintro - ⟨i, hi⟩
    simp [init] at hi

theorem LatchInv.waiter_owns {count : Int} {latch : CountDownLatch ι κ} (hinv : LatchInv count latch) {i : ι}
    (hinside : (latch.waiters i).inside = true) : latch.mutex_ = some (.waiter i) :=
  (hinv.exclusive (.waiter i)).mp hinside

theorem LatchInv.counter_owns {count : Int} {latch : CountDownLatch ι κ} (hinv : LatchInv count latch) {k : κ}
    (hinside : (latch.counters k).inside = true) : latch.mutex_ = some (.counter k) :=
  (hinv.exclusive (.counter k)).mp hinside

/-- Only the owner of the mutex can owe a notification. -/
theorem LatchInv.nobody_waits {count : Int} {latch : CountDownLatch ι κ} (hinv : LatchInv count latch)
    (hopen : latch.count_ ≤ 0) (howes : ∀ k, latch.mutex_ = some (.counter k) → (latch.counters k).owes = false)
    (i : ι) : latch.waiters i ≠ .waiting := by
  intro hwaiting
  obtain ⟨k, hk⟩ := hinv.roused hopen ⟨i, hwaiting⟩
  have hnot := howes k (hinv.counter_owns (CounterPc.inside_of_owes hk))
  rw [hk] at hnot
  cases hnot

variable [DecidableEq ι] [DecidableEq κ]

theorem inside_setWaiter (latch : CountDownLatch ι κ) (i : ι) (pc : WaiterPc) :
    (latch.setWaiter i pc).inside = Function.update latch.inside (.waiter i) pc.inside := by
  funext t
  cases t with
  | waiter j =>
    by_cases hj : j = i
    · simp [hj, inside, setWaiter]
    · simp [hj, inside, setWaiter]
  | counter k => simp [inside, setWaiter]

theorem inside_setCounter (latch : CountDownLatch ι κ) (k : κ) (pc : CounterPc) :
    (latch.setCounter k pc).inside = Function.update latch.inside (.counter k) pc.inside := by
  funext t
  cases t with
  | waiter i => simp [inside, setCounter]
  | counter j =>
    by_cases hj : j = k
    · simp [hj, inside, setCounter]
    · simp [hj, inside, setCounter]

/-- A thread moves in `wait`, and perhaps the mutex with it. -/
theorem LatchInv.move_waiter {count : Int} {latch : CountDownLatch ι κ} (hinv : LatchInv count latch) {i : ι}
    {pc : WaiterPc} {mutex_ : Option (LatchThread ι κ)}
    (hexclusive : Monitor.Exclusive mutex_ (Function.update latch.inside (.waiter i) pc.inside))
    (hfits : pc.Fits latch.count_) (hwaits : pc = .waiting → 0 < latch.count_) :
    LatchInv count { latch.setWaiter i pc with mutex_ } := by
  refine ⟨?_, hinv.counted, fun j => ?_, ?_⟩
  · have hinside := inside_setWaiter latch i pc
    exact hinside ▸ hexclusive
  · by_cases hj : j = i
    · simpa [setWaiter, hj] using hfits
    · simpa [setWaiter, hj] using hinv.waiters j
  · rintro hopen ⟨j, hj⟩
    by_cases hji : j = i
    · have hpc : pc = .waiting := by simpa [setWaiter, hji] using hj
      exact absurd hopen (Int.not_le.mpr (hwaits hpc))
    · exact hinv.roused hopen ⟨j, by simpa [setWaiter, hji] using hj⟩

/-- A thread moves in `count`, and perhaps the mutex with it. -/
theorem LatchInv.move_counter {count : Int} {latch : CountDownLatch ι κ} (hinv : LatchInv count latch) {k : κ}
    {pc : CounterPc} {mutex_ : Option (LatchThread ι κ)}
    (hexclusive : Monitor.Exclusive mutex_ (Function.update latch.inside (.counter k) pc.inside))
    (howes : latch.count_ ≤ 0 → pc.owes = true ∨ ∀ i, latch.waiters i ≠ .waiting) :
    LatchInv count { latch.setCounter k pc with mutex_ } := by
  refine ⟨?_, hinv.counted, hinv.waiters, ?_⟩
  · have hinside := inside_setCounter latch k pc
    exact hinside ▸ hexclusive
  · rintro hopen ⟨i, hi⟩
    obtain howed | hnobody := howes hopen
    · exact ⟨k, by simpa [setCounter] using howed⟩
    · exact (hnobody i hi).elim

theorem LatchInv.waiterStep {count : Int} {latch latch' : CountDownLatch ι κ} (hinv : LatchInv count latch) {i : ι}
    (hstep : latch.waiterStep i = some latch') : LatchInv count latch' := by
  have hfits := hinv.waiters i
  cases hpc : latch.waiters i <;>
    simp only [CountDownLatch.waiterStep, hpc, reduceCtorEq, Option.ite_none_right_eq_some, Option.some.injEq] at hstep
  all_goals rw [hpc] at hfits
  case locking | woken =>
    obtain ⟨hfree, rfl⟩ := hstep
    exact hinv.move_waiter (Monitor.Exclusive.acquire (hfree ▸ hinv.exclusive) _) trivial (by simp)
  case testing =>
    subst hstep
    refine hinv.move_waiter (hinv.exclusive.stay ?_) ?_ ?_
    · split <;> simp [inside, hpc, WaiterPc.inside]
    · split
      · assumption
      · rename_i hopen
        exact Int.not_lt.mp hopen
    · split <;> simp
  case sleeping =>
    subst hstep
    have howner := hinv.waiter_owns (i := i) (by simp [hpc, WaiterPc.inside])
    exact hinv.move_waiter (Monitor.Exclusive.release (howner ▸ hinv.exclusive)) trivial (fun _ => hfits)
  case returning =>
    subst hstep
    have howner := hinv.waiter_owns (i := i) (by simp [hpc, WaiterPc.inside])
    exact hinv.move_waiter (Monitor.Exclusive.release (howner ▸ hinv.exclusive)) hfits (by simp)

theorem LatchInv.counterStep {count : Int} {latch latch' : CountDownLatch ι κ} (hinv : LatchInv count latch) {k : κ}
    (hstep : latch.counterStep k = some latch') : LatchInv count latch' := by
  cases hpc : latch.counters k <;>
    simp only [CountDownLatch.counterStep, hpc, reduceCtorEq, Option.ite_none_right_eq_some,
      Option.some.injEq] at hstep
  case locking =>
    obtain ⟨hfree, rfl⟩ := hstep
    refine hinv.move_counter (Monitor.Exclusive.acquire (hfree ▸ hinv.exclusive) _) fun hopen => Or.inr ?_
    exact hinv.nobody_waits hopen (by simp [hfree])
  all_goals have howner := hinv.counter_owns (k := k) (by simp [hpc, CounterPc.inside])
  case counting =>
    subst hstep
    have hinside := inside_setCounter latch k .testing
    refine ⟨?_, ?_, fun i => ?_, fun _ _ => ⟨k, by simp [setCounter, CounterPc.owes]⟩⟩
    · exact hinside ▸ hinv.exclusive.stay (by simp [inside, hpc, CounterPc.inside])
    · have hcounted := hinv.counted
      dsimp only [setCounter]
      omega
    · -- a thread about to sleep would own the mutex
      have hfits := hinv.waiters i
      show (latch.waiters i).Fits (latch.count_ - 1)
      cases hi : latch.waiters i with
      | sleeping =>
        have hother := hinv.waiter_owns (i := i) (by simp [hi, WaiterPc.inside])
        simp [hother] at howner
      | returning | returned =>
        simp only [hi, WaiterPc.Fits] at hfits ⊢
        omega
      | _ => trivial
  case testing =>
    subst hstep
    refine hinv.move_counter (hinv.exclusive.stay ?_) fun hopen => Or.inl ?_
    · split <;> simp [inside, hpc, CounterPc.inside]
    · rw [if_pos hopen]
      rfl
  case notifying =>
    subst hstep
    have hinside := inside_setCounter latch k .returning
    refine ⟨?_, hinv.counted, fun i => (hinv.waiters i).wake, ?_⟩
    · have hstay := hinv.exclusive.stay (t := .counter k) (b := true) (by simp [inside, hpc, CounterPc.inside])
      have hwoken : inside { latch.setCounter k .returning with waiters := fun i => (latch.waiters i).wake } =
          (latch.setCounter k .returning).inside := by
        funext t
        cases t with
        | waiter i => exact WaiterPc.inside_wake _
        | counter j => rfl
      rw [hwoken, hinside]
      exact hstay
    · rintro - ⟨i, hi⟩
      exact (WaiterPc.wake_ne_waiting _ hi).elim
  case returning =>
    subst hstep
    refine hinv.move_counter (Monitor.Exclusive.release (howner ▸ hinv.exclusive)) fun hopen => Or.inr ?_
    apply hinv.nobody_waits hopen
    intro j hj
    have hkj : j = k := by simpa [howner] using hj.symm
    simp [hkj, hpc, CounterPc.owes]

theorem LatchInv.step {count : Int} {latch latch' : CountDownLatch ι κ} {l : LatchLabel ι κ}
    (hinv : LatchInv count latch) (hstep : latch.step l = some latch') : LatchInv count latch' := by
  cases l with
  | wait i =>
    simp only [CountDownLatch.step, Option.ite_none_right_eq_some, Option.some.injEq] at hstep
    obtain ⟨hpc, rfl⟩ := hstep
    refine hinv.move_waiter (hinv.exclusive.stay ?_) trivial (by simp)
    obtain hpc | hpc := hpc <;> simp [inside, hpc, WaiterPc.inside]
  | waiter i => exact hinv.waiterStep hstep
  | spurious i =>
    simp only [CountDownLatch.step, Option.ite_none_right_eq_some, Option.some.injEq] at hstep
    obtain ⟨hpc, rfl⟩ := hstep
    exact hinv.move_waiter (hinv.exclusive.stay (by simp [inside, hpc, WaiterPc.inside])) trivial (by simp)
  | count k =>
    simp only [CountDownLatch.step, Option.ite_none_right_eq_some, Option.some.injEq] at hstep
    obtain ⟨hpc, rfl⟩ := hstep
    refine ⟨?_, hinv.counted, hinv.waiters, ?_⟩
    · have hinside := inside_setCounter latch k .locking
      exact hinside ▸ hinv.exclusive.stay (by simp [inside, hpc, CounterPc.inside])
    · intro hopen hwaiting
      obtain ⟨j, hj⟩ := hinv.roused hopen hwaiting
      have hjk : j ≠ k := by
        rintro rfl
        simp [hpc, CounterPc.owes] at hj
      exact ⟨j, by simpa [setCounter, hjk] using hj⟩
  | counter k => exact hinv.counterStep hstep

theorem run_latchInv {count : Int} {latch : CountDownLatch ι κ} {labels : List (LatchLabel ι κ)}
    (hrun : Run.exec step (init count) labels = some latch) : LatchInv count latch :=
  Run.exec_preserves (fun _ _ _ hinv hstep => hinv.step hstep) (init_latchInv count) hrun

/-- A `wait` that has returned stays so until the thread waits again. -/
theorem step_returned {latch latch' : CountDownLatch ι κ} {l : LatchLabel ι κ} (hstep : latch.step l = some latch')
    {i : ι} (hreturned : latch.waiters i = .returned) (hwait : l ≠ .wait i) : latch'.waiters i = .returned := by
  have hother {j : ι} {pc : WaiterPc} (hne : i ≠ j) : Function.update latch.waiters j pc i = .returned := by
    rw [Function.update_of_ne hne, hreturned]
  cases l with
  | wait j =>
    rw [step, Option.ite_none_right_eq_some, Option.some.injEq] at hstep
    obtain ⟨_, rfl⟩ := hstep
    exact hother fun h => hwait (h ▸ rfl)
  | waiter j =>
    have hne : i ≠ j := by
      rintro rfl
      simp [step, waiterStep, hreturned] at hstep
    cases hpc : latch.waiters j <;>
      simp only [step, waiterStep, hpc, reduceCtorEq, Option.ite_none_right_eq_some, Option.some.injEq] at hstep
    case locking | woken =>
      obtain ⟨_, rfl⟩ := hstep
      exact hother hne
    case testing | sleeping | returning =>
      subst hstep
      exact hother hne
  | spurious j =>
    rw [step, Option.ite_none_right_eq_some, Option.some.injEq] at hstep
    obtain ⟨hpc, rfl⟩ := hstep
    apply hother
    rintro rfl
    simp [hreturned] at hpc
  | count k =>
    rw [step, Option.ite_none_right_eq_some, Option.some.injEq] at hstep
    obtain ⟨_, rfl⟩ := hstep
    exact hreturned
  | counter k =>
    cases hpc : latch.counters k <;>
      simp only [step, counterStep, hpc, reduceCtorEq, Option.ite_none_right_eq_some, Option.some.injEq] at hstep
    case locking =>
      obtain ⟨_, rfl⟩ := hstep
      exact hreturned
    case counting | testing | returning =>
      subst hstep
      exact hreturned
    case notifying =>
      subst hstep
      simp [hreturned, WaiterPc.wake]

/-- Without a `count()` in progress nothing is counted. -/
theorem step_uncounted {latch latch' : CountDownLatch ι κ} {l : LatchLabel ι κ} (hstep : latch.step l = some latch')
    (hidle : ∀ k, latch.counters k = .idle) (hcount : ∀ k, l ≠ .count k) :
    latch'.counts = latch.counts ∧ latch'.counters = latch.counters := by
  cases l with
  | wait i =>
    rw [step, Option.ite_none_right_eq_some, Option.some.injEq] at hstep
    obtain ⟨_, rfl⟩ := hstep
    exact ⟨rfl, rfl⟩
  | waiter i =>
    cases hpc : latch.waiters i <;>
      simp only [step, waiterStep, hpc, reduceCtorEq, Option.ite_none_right_eq_some, Option.some.injEq] at hstep
    case locking | woken =>
      obtain ⟨_, rfl⟩ := hstep
      exact ⟨rfl, rfl⟩
    case testing | sleeping | returning =>
      subst hstep
      exact ⟨rfl, rfl⟩
  | spurious i =>
    rw [step, Option.ite_none_right_eq_some, Option.some.injEq] at hstep
    obtain ⟨_, rfl⟩ := hstep
    exact ⟨rfl, rfl⟩
  | count k => exact (hcount k rfl).elim
  | counter k => simp [step, counterStep, hidle k] at hstep

/-- A `wait` returns only when the latch has been counted down as often as it was constructed for. -/
theorem wait_returns_after_counts {count : Int} {latch : CountDownLatch ι κ} {labels : List (LatchLabel ι κ)}
    (hrun : Run.exec step (init count) labels = some latch) {i : ι} (hreturned : latch.waiters i = .returned) :
    count ≤ latch.counts := by
  have hinv := run_latchInv hrun
  have hopen : (latch.waiters i).Fits latch.count_ := hinv.waiters i
  rw [hreturned] at hopen
  have hcounted := hinv.counted
  simp only [WaiterPc.Fits] at hopen
  omega

/-- Two threads wait, are woken by the second `count()`, and one of them has returned. -/
theorem wait_returns_after_counts_twice : ∃ latch : CountDownLatch (Fin 2) Unit,
    Run.exec step (init 2) [.wait 0, .waiter 0, .waiter 0, .waiter 0, .wait 1, .waiter 1, .waiter 1, .waiter 1,
      .count (), .counter (), .counter (), .counter (), .counter (), .count (), .counter (), .counter (), .counter (),
      .counter (), .counter (), .waiter 1, .waiter 1, .waiter 1] = some latch ∧
    latch.waiters 1 = .returned ∧ (2 : Int) ≤ latch.counts := by
  apply Run.Reaches.exists_of (p := fun latch => latch.waiters 1 = .returned)
  · decide
  · intro latch hrun hreturned
    exact ⟨hreturned, wait_returns_after_counts hrun hreturned⟩

/-- At an open latch whose mutex is free a thread in `wait` returns by its own steps. -/
theorem waiter_returns {latch : CountDownLatch ι κ} {i : ι} (hfree : latch.mutex_ = none) (hopen : latch.count_ ≤ 0)
    (hpc : latch.waiters i = .locking ∨ latch.waiters i = .woken) :
    ∃ latch', Run.exec step latch (List.replicate 3 (.waiter i)) = some latch' ∧ latch'.waiters i = .returned := by
  obtain hpc | hpc := hpc <;>
    simp [Run.exec, List.replicate, step, waiterStep, hpc, hfree, setWaiter, Int.not_lt.mpr hopen]

/-- Once the latch has been counted down, nobody is left waiting for a notification: whenever the mutex is free,
every thread inside `wait` can return without the help of another one. -/
theorem no_waiter_stranded {count : Int} {latch : CountDownLatch ι κ} {labels : List (LatchLabel ι κ)}
    (hrun : Run.exec step (init count) labels = some latch) (hcounted : count ≤ latch.counts)
    (hfree : latch.mutex_ = none) (i : ι) : latch.waiters i = .idle ∨ latch.waiters i = .returned ∨
      ∃ latch', Run.exec step latch (List.replicate 3 (.waiter i)) = some latch' ∧ latch'.waiters i = .returned := by
  have hinv := run_latchInv hrun
  have hopen : latch.count_ ≤ 0 := by
    have h := hinv.counted
    omega
  have houtside : (latch.waiters i).inside = false := by
    have hexclusive : latch.inside (.waiter i) = true ↔ latch.mutex_ = some (.waiter i) := hinv.exclusive _
    simpa [hfree, inside] using hexclusive
  have hwaits := hinv.nobody_waits hopen (by simp [hfree]) i
  cases hpc : latch.waiters i with
  | idle => exact Or.inl rfl
  | locking => exact Or.inr (Or.inr (waiter_returns hfree hopen (Or.inl hpc)))
  | woken => exact Or.inr (Or.inr (waiter_returns hfree hopen (Or.inr hpc)))
  | returned => exact Or.inr (Or.inl rfl)
  | waiting => exact (hwaits hpc).elim
  | testing | sleeping | returning => simp [hpc, WaiterPc.inside] at houtside

/-- The waiter slept through the `count()` that opened the latch and has been woken by it. -/
theorem no_waiter_stranded_woken : ∃ latch : CountDownLatch Unit Unit,
    Run.exec step (init 1) [.wait (), .waiter (), .waiter (), .waiter (), .count (), .counter (), .counter (),
      .counter (), .counter (), .counter ()] = some latch ∧ latch.waiters () = .woken ∧
    (latch.waiters () = .idle ∨ latch.waiters () = .returned ∨
      ∃ latch', Run.exec step latch (List.replicate 3 (.waiter ())) = some latch' ∧
        latch'.waiters () = .returned) := by
  apply Run.Reaches.exists_of
    (p := fun latch => latch.waiters () = .woken ∧ (1 : Int) ≤ latch.counts ∧ latch.mutex_ = none)
  · decide
  · rintro latch hrun ⟨hwoken, hcounted, hfree⟩
    exact ⟨hwoken, no_waiter_stranded hrun hcounted hfree ()⟩

end CountDownLatch

end mudong.ev
