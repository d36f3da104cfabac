import Mudong.ThreadPool.Stop

namespace mudong.ev

/-- How far a worker is from its end, once `running_` is false. A notification may send a producer on its way. -/
def WorkerPc.rest {τ : Type} : WorkerPc τ → Nat
  | .left => 0
  | .loop => 1
  | .executing _ => 2
  | .returning _ => 3
  | .notifying _ => 9
  | .taking => 10
  | .testing => 11
  | .woken => 12
  | .locking => 12
  | .waiting => 13
  | .sleeping => 14

/-- How far a producer is from its end, or from waiting. -/
def ProducerPc.rest {τ : Type} : ProducerPc τ → Nat
  | .idle => 0
  | .waiting _ => 0
  | .sleeping _ => 1
  | .returning => 1
  | .notifying => 2
  | .pushing _ => 3
  | .testing _ => 4
  | .woken _ => 5
  | .locking _ => 5

/-- How far `stop` is from its joins. -/
def StopPc.rest : StopPc → Nat
  | .idle => 4
  | .locking => 3
  | .notifying => 2
  | .returning => 1
  | .joining => 0
  | .returned => 0

theorem WorkerPc.rest_wake_le {τ : Type} (pc : WorkerPc τ) : pc.wake.rest ≤ pc.rest := by
  cases pc <;> simp [wake, rest]

theorem ProducerPc.rest_wake_le {τ : Type} (pc : ProducerPc τ) : pc.wake.rest ≤ pc.rest + 5 := by
  cases pc <;> simp [wake, rest]

namespace ThreadPool

variable {τ : Type} {threadNum : Nat} {ι : Type} [Fintype ι]

def rest (pool : ThreadPool τ threadNum ι) : Nat :=
  ∑ i, (pool.workers i).rest + ∑ j, (pool.producers j).rest + pool.stopper.rest

theorem rest_update_worker {pool pool' : ThreadPool τ threadNum ι} {i : Fin threadNum} {pc : WorkerPc τ}
    (hmoved : (pool'.workers, pool'.producers, pool'.stopper) =
      (Function.update pool.workers i pc, pool.producers, pool.stopper)) :
    pool'.rest + (pool.workers i).rest = pool.rest + pc.rest := by
  simp only [Prod.mk.injEq] at hmoved
  obtain ⟨hworkers, hproducers, hstopper⟩ := hmoved
  have hsum := Monitor.sum_update WorkerPc.rest pool.workers i pc
  unfold rest
  rw [hworkers, hproducers, hstopper]
  omega

theorem rest_move_worker {pool pool' : ThreadPool τ threadNum ι} {i : Fin threadNum} {pc : WorkerPc τ}
    (hmoved : (pool'.workers, pool'.producers, pool'.stopper) =
      (Function.update pool.workers i pc, pool.producers, pool.stopper))
    (hless : pc.rest < (pool.workers i).rest) : pool'.rest < pool.rest := by
  have hsum := rest_update_worker hmoved
  omega

variable [DecidableEq ι]

theorem rest_move_producer {pool pool' : ThreadPool τ threadNum ι} {j : ι} {pc : ProducerPc τ}
    (hmoved : (pool'.workers, pool'.producers, pool'.stopper) =
      (pool.workers, Function.update pool.producers j pc, pool.stopper))
    (hless : pc.rest < (pool.producers j).rest) : pool'.rest < pool.rest := by
  simp only [Prod.mk.injEq] at hmoved
  obtain ⟨hworkers, hproducers, hstopper⟩ := hmoved
  have hsum := Monitor.sum_update ProducerPc.rest pool.producers j pc
  unfold rest
  rw [hworkers, hproducers, hstopper]
  omega

omit [DecidableEq ι] in
theorem rest_wakeWorker_le (pool : ThreadPool τ threadNum ι) (wake : Option (Fin threadNum)) :
    (pool.wakeWorker wake).rest ≤ pool.rest := by
  cases wake with
  | none => exact le_rfl
  | some i =>
    have hsum := Monitor.sum_update WorkerPc.rest pool.workers i (pool.workers i).wake
    have hle := WorkerPc.rest_wake_le (pool.workers i)
    simp only [rest, wakeWorker, setWorker]
    omega

theorem rest_wakeProducer_le (pool : ThreadPool τ threadNum ι) (wake : Option ι) :
    (pool.wakeProducer wake).rest ≤ pool.rest + 5 := by
  cases wake with
  | none => exact Nat.le_add_right _ _
  | some j =>
    have hsum := Monitor.sum_update ProducerPc.rest pool.producers j (pool.producers j).wake
    have hle := ProducerPc.rest_wake_le (pool.producers j)
    simp only [rest, wakeProducer, setProducer]
    omega

/-- Some thread can go on and come nearer to its end; a producer enters the mutex only when no worker is left to
come to the queue. -/
def Advances (pool : ThreadPool τ threadNum ι) : Prop :=
  ∃ l pool', pool.step l = some pool' ∧ pool'.rest < pool.rest ∧
    ((∃ j wake, l = .producer j wake ∧ (pool.producers j).inside = false) → pool.bound = 0)

theorem Advances.worker {pool pool' : ThreadPool τ threadNum ι} {i : Fin threadNum} {wake : Option ι}
    (hstep : pool.step (.worker i wake) = some pool') (hless : pool'.rest < pool.rest) : pool.Advances :=
  ⟨_, pool', hstep, hless, by rintro ⟨j, wake, hl, _⟩; cases hl⟩

theorem Advances.producer {pool pool' : ThreadPool τ threadNum ι} {j : ι} {wake : Option (Fin threadNum)}
    (hstep : pool.step (.producer j wake) = some pool') (hless : pool'.rest < pool.rest)
    (hlock : (pool.producers j).inside = false → pool.bound = 0) : pool.Advances :=
  ⟨_, pool', hstep, hless, by rintro ⟨j, wake, ⟨⟩, houtside⟩; exact hlock houtside⟩

theorem Advances.stopper {pool pool' : ThreadPool τ threadNum ι} (hstep : pool.step .stopper = some pool')
    (hless : pool'.rest < pool.rest) : pool.Advances :=
  ⟨_, pool', hstep, hless, by rintro ⟨j, wake, hl, _⟩; cases hl⟩

/-- A worker inside the mutex goes on. -/
theorem advances_worker_inside {pool : ThreadPool τ threadNum ι} (hstopped : pool.running_ = false)
    {i : Fin threadNum} (hinside : (pool.workers i).inside = true) : pool.Advances := by
  cases hpc : pool.workers i with
  | testing =>
    have hstep : pool.step (.worker i none) = some (pool.setWorker i .taking) := by
      simp [step, workerStep, hpc, hstopped]
    exact .worker hstep (rest_move_worker rfl (by simp [hpc, WorkerPc.rest]))
  | sleeping =>
    have hstep : pool.step (.worker i none) = some { pool.setWorker i .waiting with mutex_ := none } := by
      simp [step, workerStep, hpc]
    exact .worker hstep (rest_move_worker rfl (by simp [hpc, WorkerPc.rest]))
  | taking =>
    cases hqueue : pool.taskQueue_ with
    | nil =>
      have hstep : pool.step (.worker i none) = some (pool.setWorker i (.returning none)) := by
        simp [step, workerStep, hpc, hqueue]
      exact .worker hstep (rest_move_worker rfl (by simp [hpc, WorkerPc.rest]))
    | cons task queue =>
      have hstep : pool.step (.worker i none) =
          some { pool.setWorker i (.notifying task) with taskQueue_ := queue } := by
        simp [step, workerStep, hpc, hqueue]
      exact .worker hstep (rest_move_worker rfl (by simp [hpc, WorkerPc.rest]))
  | notifying task =>
    obtain ⟨wake, hwake⟩ := Monitor.exists_notifies pool.producerStand
    have hstep : pool.step (.worker i wake) = some ((pool.wakeProducer wake).setWorker i (.returning task)) := by
      simp [step, workerStep, hpc, hwake]
    have hwoken := rest_wakeProducer_le pool wake
    have hsum : ((pool.wakeProducer wake).setWorker i (.returning task)).rest +
        ((pool.wakeProducer wake).workers i).rest =
          (pool.wakeProducer wake).rest + (.returning task : WorkerPc τ).rest := rest_update_worker rfl
    have hreturning : (.returning task : WorkerPc τ).rest = 3 := rfl
    have hnotifying : ((pool.wakeProducer wake).workers i).rest = 9 := by
      rw [wakeProducer_workers, hpc]
      rfl
    exact .worker hstep (by omega)
  | returning task =>
    cases task with
    | none =>
      have hstep : pool.step (.worker i none) = some { pool.setWorker i .loop with mutex_ := none } := by
        simp [step, workerStep, hpc]
      exact .worker hstep (rest_move_worker rfl (by simp [hpc, WorkerPc.rest]))
    | some task =>
      have hstep : pool.step (.worker i none) = some { pool.setWorker i (.executing task) with mutex_ := none } := by
        simp [step, workerStep, hpc]
      exact .worker hstep (rest_move_worker rfl (by simp [hpc, WorkerPc.rest]))
  | _ =>
    rw [hpc] at hinside
    cases hinside

/-- A producer inside the mutex goes on. -/
theorem advances_producer_inside {pool : ThreadPool τ threadNum ι} {j : ι}
    (hinside : (pool.producers j).inside = true) : pool.Advances := by
  have hlock : (pool.producers j).inside = false → pool.bound = 0 := by simp [hinside]
  cases hpc : pool.producers j with
  | testing task =>
    by_cases hfull : pool.maxQueueSize_ ≤ pool.taskQueue_.length
    · have hstep : pool.step (.producer j none) = some (pool.setProducer j (.sleeping task)) := by
        simp [step, producerStep, hpc, hfull]
      exact .producer hstep (rest_move_producer rfl (by simp [hpc, ProducerPc.rest])) hlock
    · have hstep : pool.step (.producer j none) = some (pool.setProducer j (.pushing task)) := by
        simp [step, producerStep, hpc, hfull]
      exact .producer hstep (rest_move_producer rfl (by simp [hpc, ProducerPc.rest])) hlock
  | sleeping task =>
    have hstep : pool.step (.producer j none) = some { pool.setProducer j (.waiting task) with mutex_ := none } := by
      simp [step, producerStep, hpc]
    exact .producer hstep (rest_move_producer rfl (by simp [hpc, ProducerPc.rest])) hlock
  | pushing task =>
    have hstep : pool.step (.producer j none) =
        some { pool.setProducer j .notifying with taskQueue_ := pool.taskQueue_ ++ [task] } := by
      simp [step, producerStep, hpc]
    exact .producer hstep (rest_move_producer rfl (by simp [hpc, ProducerPc.rest])) hlock
  | notifying =>
    obtain ⟨wake, hwake⟩ := Monitor.exists_notifies pool.workerStand
    have hstep : pool.step (.producer j wake) = some ((pool.wakeWorker wake).setProducer j .returning) := by
      simp [step, producerStep, hpc, hwake]
    refine .producer hstep (lt_of_lt_of_le ?_ (rest_wakeWorker_le pool wake)) hlock
    exact rest_move_producer rfl (by simp [hpc, ProducerPc.rest])
  | returning =>
    have hstep : pool.step (.producer j none) = some { pool.setProducer j .idle with mutex_ := none } := by
      simp [step, producerStep, hpc]
    exact .producer hstep (rest_move_producer rfl (by simp [hpc, ProducerPc.rest])) hlock
  | _ =>
    rw [hpc] at hinside
    cases hinside

/-- With the mutex free and the notifications of `stop` made, a worker that has not left goes on. -/
theorem advances_worker_outside {pool : ThreadPool τ threadNum ι} (hinv : pool.WakeupInv)
    (hstopped : pool.running_ = false) (hnotified : pool.stopper.hasNotified = true) (hfree : pool.mutex_ = none)
    {i : Fin threadNum} (hleft : (pool.workers i).hasLeft = false) : pool.Advances := by
  have houtside := hinv.mutex.worker_outside (i := i) (by simp [hfree])
  cases hpc : pool.workers i with
  | loop =>
    have hstep : pool.step (.worker i none) = some (pool.setWorker i .left) := by
      simp [step, workerStep, hpc, hstopped]
    exact .worker hstep (rest_move_worker rfl (by simp [hpc, WorkerPc.rest]))
  | locking =>
    have hstep : pool.step (.worker i none) = some { pool.setWorker i .testing with mutex_ := some (.worker i) } := by
      simp [step, workerStep, hpc, hfree]
    exact .worker hstep (rest_move_worker rfl (by simp [hpc, WorkerPc.rest]))
  | waiting => exact ((hinv.awake hnotified i).2 hpc).elim
  | woken =>
    have hstep : pool.step (.worker i none) = some { pool.setWorker i .testing with mutex_ := some (.worker i) } := by
      simp [step, workerStep, hpc, hfree]
    exact .worker hstep (rest_move_worker rfl (by simp [hpc, WorkerPc.rest]))
  | executing task =>
    have hstep : pool.step (.worker i none) = some (pool.setWorker i .loop) := by simp [step, workerStep, hpc]
    exact .worker hstep (rest_move_worker rfl (by simp [hpc, WorkerPc.rest]))
  | left =>
    rw [hpc] at hleft
    cases hleft
  | _ =>
    rw [hpc] at houtside
    cases houtside

/-- With the mutex free and no worker left, a producer that neither has pushed nor waits goes on. -/
theorem advances_producer_outside {pool : ThreadPool τ threadNum ι} (hmutex : pool.MutexInv)
    (hleft : ∀ i, (pool.workers i).hasLeft = true) (hfree : pool.mutex_ = none) {j : ι}
    (hunpushed : (pool.producers j).unpushed ≠ 0) (hwaiting : pool.producerStand j ≠ .waiting) : pool.Advances := by
  have houtside := hmutex.producer_outside (j := j) (by simp [hfree])
  have hbound : pool.bound = 0 :=
    Finset.sum_eq_zero fun i _ => by rw [WorkerPc.hasLeft_iff.mp (hleft i)]; rfl
  cases hpc : pool.producers j with
  | locking task =>
    have hstep : pool.step (.producer j none) =
        some { pool.setProducer j (.testing task) with mutex_ := some (.producer j) } := by
      simp [step, producerStep, hpc, hfree]
    exact .producer hstep (rest_move_producer rfl (by simp [hpc, ProducerPc.rest])) fun _ => hbound
  | woken task =>
    have hstep : pool.step (.producer j none) =
        some { pool.setProducer j (.testing task) with mutex_ := some (.producer j) } := by
      simp [step, producerStep, hpc, hfree]
    exact .producer hstep (rest_move_producer rfl (by simp [hpc, ProducerPc.rest])) fun _ => hbound
  | waiting task => exact (hwaiting (by rw [producerStand, hpc]; rfl)).elim
  | idle =>
    rw [hpc] at hunpushed
    exact (hunpushed rfl).elim
  | _ =>
    rw [hpc] at houtside
    cases houtside

/-- `stop` goes on inside the mutex. -/
theorem advances_stopper_inside {pool : ThreadPool τ threadNum ι} (hinside : pool.stopper.inside = true) :
    pool.Advances := by
  cases hpc : pool.stopper with
  | notifying =>
    have hstep : pool.step .stopper =
        some { pool with stopper := .returning, workers := fun i => (pool.workers i).wake } := by
      simp [step, stopStep, hpc]
    refine .stopper hstep ?_
    have hwoken : ∑ i, (pool.workers i).wake.rest ≤ ∑ i, (pool.workers i).rest :=
      Finset.sum_le_sum fun i _ => WorkerPc.rest_wake_le _
    simp only [rest, hpc, StopPc.rest]
    omega
  | returning =>
    have hstep : pool.step .stopper = some { pool with stopper := .joining, mutex_ := none } := by
      simp [step, stopStep, hpc]
    exact .stopper hstep (by simp [rest, hpc, StopPc.rest])
  | _ =>
    rw [hpc] at hinside
    cases hinside

/-- `stop` locks the mutex to notify the workers. -/
theorem advances_stopper_outside {pool : ThreadPool τ threadNum ι} (hmutex : pool.MutexInv)
    (hstop : pool.stopper ≠ .idle) (hnotified : pool.stopper.hasNotified = false) (hfree : pool.mutex_ = none) :
    pool.Advances := by
  cases hpc : pool.stopper with
  | idle => exact (hstop hpc).elim
  | locking =>
    have hstep : pool.step .stopper = some { pool with stopper := .notifying, mutex_ := some .stopper } := by
      simp [step, stopStep, hpc, hfree]
    exact .stopper hstep (by simp [rest, hpc, StopPc.rest])
  | notifying =>
    have howner := (hmutex.exclusive .stopper).mp (congrArg StopPc.inside hpc)
    rw [hfree] at howner
    cases howner
  | _ =>
    rw [hpc] at hnotified
    cases hnotified

/-- After `stop` has stored `running_`, some thread can go on until all workers have left and all producers have
pushed their tasks or wait. -/
theorem advances_or_settled {pool : ThreadPool τ threadNum ι} (hinv : pool.WakeupInv) (hstop : pool.stopper ≠ .idle) :
    pool.Advances ∨ (∀ i, (pool.workers i).hasLeft = true) ∧
      ∀ j, (pool.producers j).unpushed = 0 ∨ pool.producerStand j = .waiting := by
  have hstopped := hinv.stopped hstop
  cases hmutex : pool.mutex_ with
  | some thread =>
    have hinside := (hinv.mutex.exclusive thread).mpr hmutex
    refine Or.inl ?_
    cases thread with
    | worker i => exact advances_worker_inside hstopped hinside
    | producer j => exact advances_producer_inside hinside
    | stopper => exact advances_stopper_inside hinside
  | none =>
    cases hnotified : pool.stopper.hasNotified with
    | false => exact Or.inl (advances_stopper_outside hinv.mutex hstop hnotified hmutex)
    | true =>
      by_cases hleft : ∀ i, (pool.workers i).hasLeft = true
      · by_cases hsettled : ∀ j, (pool.producers j).unpushed = 0 ∨ pool.producerStand j = .waiting
        · exact Or.inr ⟨hleft, hsettled⟩
        · simp only [not_forall, not_or] at hsettled
          obtain ⟨j, hunpushed, hwaiting⟩ := hsettled
          exact Or.inl (advances_producer_outside hinv.mutex hleft hmutex hunpushed hwaiting)
      · simp only [not_forall, Bool.not_eq_true] at hleft
        obtain ⟨i, hleft⟩ := hleft
        exact Or.inl (advances_worker_outside hinv hstopped hnotified hmutex hleft)

/-- A pool that does not drain has a run that strands a producer. -/
theorem exists_stranded {pool : ThreadPool τ threadNum ι} (hinv : pool.WakeupInv) (hstop : pool.stopper ≠ .idle)
    (hnot : ¬pool.Drains) : ∃ labels pool', Run.exec step pool labels = some pool' ∧
      (∀ i, (pool'.workers i).hasLeft = true) ∧ ∃ j, pool'.producerStand j = .waiting := by
  induction hrest : pool.rest using Nat.strong_induction_on generalizing pool with
  | _ n ih =>
    obtain ⟨l, pool', hstep, hless, hlock⟩ | ⟨hleft, hsettled⟩ := advances_or_settled hinv hstop
    · have hnot' : ¬pool'.Drains := by
        obtain hiff | ⟨hproducer, _, hiff⟩ := step_drains hinv.mutex (hinv.stopped hstop) hstep
        · rwa [hiff]
        · rwa [hiff (hlock hproducer)]
      obtain ⟨labels, last, hrun, hlast⟩ := ih _ (hrest ▸ hless) (hinv.step hstep) (step_stopper_ne_idle hstep hstop)
        hnot' rfl
      exact ⟨l :: labels, last, Run.exec_cons_eq_some.mpr ⟨pool', hstep, hrun⟩, hlast⟩
    · -- The queue cannot hold all the tasks on their way, so that one of them is still with its producer.
      have hbound := hinv.mutex.bound
      have hpositive : pool.unpushed ≠ 0 := by
        intro hzero
        exact hnot (by unfold Drains; omega)
      obtain ⟨j, _, hj⟩ := Finset.exists_ne_zero_of_sum_ne_zero hpositive
      exact ⟨[], pool, rfl, hleft, j, (hsettled j).resolve_left hj⟩

/-- The condition is exact: a state in which `stop` is called drains if and only if no run from there strands a
producer. -/
theorem strands_nobody_iff_drains {maxQueueSize_ : Nat} {labels : List (PoolLabel τ threadNum ι)}
    {pool stopped : ThreadPool τ threadNum ι} (hpos : 0 < threadNum)
    (hrun : Run.exec step (init maxQueueSize_) labels = some pool) (hstop : pool.step .stop = some stopped) :
    (∀ later pool', Run.exec step stopped later = some pool' → (∀ i, (pool'.workers i).hasLeft = true) →
      ∀ j, pool'.producerStand j ≠ .waiting) ↔ pool.Drains := by
  have hwakeup := (exec_wakeupInv hrun).step hstop
  cases step_moves hstop with
  | stops hpc hrunning =>
    constructor
    · intro hnobody
      by_contra hnot
      obtain ⟨later, pool', hlater, hleft, j, hwaiting⟩ := exists_stranded hwakeup (by simp) hnot
      exact hnobody later pool' hlater hleft j hwaiting
    · intro hdrains later pool' hlater hleft
      have hinv : pool'.StopInv ∧ pool'.running_ = false := by
        refine Run.exec_preserves (I := fun pool => pool.StopInv ∧ pool.running_ = false) ?_
          ⟨⟨hwakeup, fun _ _ => rfl, fun _ => hdrains⟩, rfl⟩ hlater
        rintro s l t ⟨hinv, hstopped⟩ hstep
        refine ⟨hinv.step (fun _ => hinv.drains hstopped) hstep, ?_⟩
        obtain hsame | rfl := step_running_ hstep
        · exact hsame.trans hstopped
        · simp [step, hstopped] at hstep
      exact hinv.1.not_waiting hpos hleft

end ThreadPool

end mudong.ev
