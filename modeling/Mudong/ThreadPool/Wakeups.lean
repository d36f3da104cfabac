import Mudong.ThreadPool.Mutex

namespace mudong.ev

open Monitor (NoLostWakeup Stand)

/-- The worker has taken a task and not yet notified `notFull_`. -/
def WorkerPc.owes {τ : Type} : WorkerPc τ → Nat
  | .notifying _ => 1
  | _ => 0

/-- The producer has pushed its task and not yet notified `notEmpty_`. -/
def ProducerPc.owes {τ : Type} : ProducerPc τ → Nat
  | .notifying => 1
  | _ => 0

/-- `stop` is past its `notify_all`. -/
def StopPc.hasNotified : StopPc → Bool
  | .returning => true
  | .joining => true
  | .returned => true
  | _ => false

@[simp] theorem WorkerPc.owes_wake {τ : Type} (pc : WorkerPc τ) : pc.wake.owes = pc.owes := by
  cases pc <;> rfl

@[simp] theorem ProducerPc.owes_wake {τ : Type} (pc : ProducerPc τ) : pc.wake.owes = pc.owes := by
  cases pc <;> rfl

theorem WorkerPc.stand_wake {τ : Type} {pc : WorkerPc τ} (h : pc.stand = .waiting) : pc.wake.stand = .woken := by
  cases pc with
  | waiting => rfl
  | _ => cases h

theorem WorkerPc.stand_wake_ne {τ : Type} (pc : WorkerPc τ) : pc.wake.stand ≠ .waiting := by
  cases pc <;> simp [WorkerPc.wake, WorkerPc.stand]

theorem ProducerPc.stand_wake {τ : Type} {pc : ProducerPc τ} (h : pc.stand = .waiting) : pc.wake.stand = .woken := by
  cases pc with
  | waiting task => rfl
  | _ => cases h

theorem WorkerPc.owes_of_outside {τ : Type} {pc : WorkerPc τ} (houtside : pc.inside = false) : pc.owes = 0 := by
  cases pc with
  | notifying task => cases houtside
  | _ => rfl

theorem ProducerPc.owes_of_outside {τ : Type} {pc : ProducerPc τ} (houtside : pc.inside = false) : pc.owes = 0 := by
  cases pc with
  | notifying => cases houtside
  | _ => rfl

/-- Outside the mutex only a woken worker is on its way. -/
theorem WorkerPc.coming_of_outside {τ : Type} {pc : WorkerPc τ} (houtside : pc.inside = false) :
    pc.stand.coming = if pc.stand = .woken then 1 else 0 := by
  cases pc with
  | testing => cases houtside
  | taking => cases houtside
  | _ => rfl

/-- Outside the mutex only a woken producer is on its way. -/
theorem ProducerPc.coming_of_outside {τ : Type} {pc : ProducerPc τ} (houtside : pc.inside = false) :
    pc.stand.coming = if pc.stand = .woken then 1 else 0 := by
  cases pc with
  | testing task => cases houtside
  | pushing task => cases houtside
  | _ => rfl

namespace ThreadPool

variable {τ : Type} {threadNum : Nat} {ι : Type}

theorem workerStand_update {pool pool' : ThreadPool τ threadNum ι} {i : Fin threadNum} {pc : WorkerPc τ}
    (hworkers : pool'.workers = Function.update pool.workers i pc) :
    pool'.workerStand = Function.update pool.workerStand i pc.stand := by
  funext k
  rw [workerStand, hworkers]
  exact congrFun (Function.comp_update WorkerPc.stand pool.workers i pc) k

theorem wakeWorker_workerStand {pool : ThreadPool τ threadNum ι} {wake : Option (Fin threadNum)}
    (hwake : Monitor.Notifies pool.workerStand wake) :
    (pool.wakeWorker wake).workerStand = Monitor.wakeOne pool.workerStand wake := by
  cases wake with
  | none => rfl
  | some i =>
    rw [workerStand_update rfl, WorkerPc.stand_wake hwake]
    rfl

theorem producerStand_wakeWorker (pool : ThreadPool τ threadNum ι) (wake : Option (Fin threadNum)) :
    (pool.wakeWorker wake).producerStand = pool.producerStand := by
  cases wake <;> rfl

/-- Waking a worker does not change what it owes. -/
theorem wakeWorker_owes (pool : ThreadPool τ threadNum ι) (wake : Option (Fin threadNum)) :
    ∑ i, ((pool.wakeWorker wake).workers i).owes = ∑ i, (pool.workers i).owes := by
  cases wake with
  | none => rfl
  | some i =>
    have hsum := Monitor.sum_update WorkerPc.owes pool.workers i (pool.workers i).wake
    rw [WorkerPc.owes_wake] at hsum
    exact Nat.add_right_cancel hsum

section Producers

variable [DecidableEq ι]

theorem producerStand_update {pool pool' : ThreadPool τ threadNum ι} {j : ι} {pc : ProducerPc τ}
    (hproducers : pool'.producers = Function.update pool.producers j pc) :
    pool'.producerStand = Function.update pool.producerStand j pc.stand := by
  funext k
  rw [producerStand, hproducers]
  exact congrFun (Function.comp_update ProducerPc.stand pool.producers j pc) k

theorem wakeProducer_producerStand {pool : ThreadPool τ threadNum ι} {wake : Option ι}
    (hwake : Monitor.Notifies pool.producerStand wake) :
    (pool.wakeProducer wake).producerStand = Monitor.wakeOne pool.producerStand wake := by
  cases wake with
  | none => rfl
  | some j =>
    rw [producerStand_update rfl, ProducerPc.stand_wake hwake]
    rfl

theorem workerStand_wakeProducer (pool : ThreadPool τ threadNum ι) (wake : Option ι) :
    (pool.wakeProducer wake).workerStand = pool.workerStand := by
  cases wake <;> rfl

/-- Waking a producer does not change what it owes. -/
theorem wakeProducer_owes [Fintype ι] (pool : ThreadPool τ threadNum ι) (wake : Option ι) :
    ∑ j, ((pool.wakeProducer wake).producers j).owes = ∑ j, (pool.producers j).owes := by
  cases wake with
  | none => rfl
  | some j =>
    have hsum := Monitor.sum_update ProducerPc.owes pool.producers j (pool.producers j).wake
    rw [ProducerPc.owes_wake] at hsum
    exact Nat.add_right_cancel hsum

end Producers

variable [Fintype ι]

/-- While a worker waits, another one is on its way or will be notified for every task in the queue. -/
def NotEmptyCovered (pool : ThreadPool τ threadNum ι) : Prop :=
  NoLostWakeup pool.workerStand pool.taskQueue_.length (∑ j, (pool.producers j).owes)

/-- While a producer waits, another one is on its way or will be notified for every free place in the queue. -/
def NotFullCovered (pool : ThreadPool τ threadNum ι) : Prop :=
  NoLostWakeup pool.producerStand (pool.maxQueueSize_ - pool.taskQueue_.length) (∑ i, (pool.workers i).owes)

/-- No wakeup of the two condition variables is lost, and after the `notify_all` of `stop` no worker waits or is
about to. -/
structure WakeupInv (pool : ThreadPool τ threadNum ι) : Prop where
  mutex : pool.MutexInv
  notEmpty : pool.NotEmptyCovered
  notFull : pool.NotFullCovered
  stopped : pool.stopper ≠ .idle → pool.running_ = false
  awake : pool.stopper.hasNotified = true → ∀ i, pool.workers i ≠ .sleeping ∧ pool.workers i ≠ .waiting

theorem init_wakeupInv (maxQueueSize_ : Nat) : (init maxQueueSize_ : ThreadPool τ threadNum ι).WakeupInv where
  mutex := init_mutexInv maxQueueSize_
  notEmpty := .of_zero _ _
  notFull := .of_none (fun _ => by simp [init, producerStand, ProducerPc.stand]) _ _
  stopped h := (h rfl).elim
  awake h := by cases h

theorem NotEmptyCovered.of_empty {pool : ThreadPool τ threadNum ι} (hempty : pool.taskQueue_ = []) :
    pool.NotEmptyCovered := by
  unfold NotEmptyCovered
  rw [hempty]
  exact .of_zero _ _

theorem NotFullCovered.of_full {pool : ThreadPool τ threadNum ι}
    (hfull : pool.maxQueueSize_ ≤ pool.taskQueue_.length) : pool.NotFullCovered := by
  unfold NotFullCovered
  rw [Nat.sub_eq_zero_of_le hfull]
  exact .of_zero _ _

/-- A worker that does not begin to wait takes no more than the one task it has come for. -/
theorem NotEmptyCovered.move_worker {pool pool' : ThreadPool τ threadNum ι} (h : pool.NotEmptyCovered)
    {i : Fin threadNum} {pc : WorkerPc τ}
    (hmoved : (pool'.workers, pool'.producers) = (Function.update pool.workers i pc, pool.producers))
    (hwaiting : pc.stand ≠ .waiting)
    (hle : pool'.taskQueue_.length + (pool.workers i).stand.coming ≤ pool.taskQueue_.length + pc.stand.coming) :
    pool'.NotEmptyCovered := by
  simp only [Prod.mk.injEq] at hmoved
  unfold NotEmptyCovered
  rw [workerStand_update hmoved.1, hmoved.2]
  refine NoLostWakeup.update h hwaiting ?_
  simp only [workerStand]
  omega

/-- A worker owes a notification for each place it has freed. -/
theorem NotFullCovered.move_worker {pool pool' : ThreadPool τ threadNum ι} (h : pool.NotFullCovered)
    {i : Fin threadNum} {pc : WorkerPc τ}
    (hmoved : (pool'.maxQueueSize_, pool'.workers, pool'.producers) =
      (pool.maxQueueSize_, Function.update pool.workers i pc, pool.producers))
    (hle : pool.maxQueueSize_ - pool'.taskQueue_.length + (pool.workers i).owes ≤
      pool.maxQueueSize_ - pool.taskQueue_.length + pc.owes) : pool'.NotFullCovered := by
  simp only [Prod.mk.injEq] at hmoved
  have hstand : pool'.producerStand = pool.producerStand := by
    funext j
    rw [producerStand, producerStand, hmoved.2.2]
  have hsum := Monitor.sum_update WorkerPc.owes pool.workers i pc
  unfold NotFullCovered
  rw [hstand, hmoved.1, hmoved.2.1]
  refine NoLostWakeup.mono h ?_
  omega

variable [DecidableEq ι]

/-- A producer that does not begin to wait takes no more than the one place it has come for. -/
theorem NotFullCovered.move_producer {pool pool' : ThreadPool τ threadNum ι} (h : pool.NotFullCovered)
    {j : ι} {pc : ProducerPc τ}
    (hmoved : (pool'.maxQueueSize_, pool'.workers, pool'.producers) =
      (pool.maxQueueSize_, pool.workers, Function.update pool.producers j pc))
    (hwaiting : pc.stand ≠ .waiting)
    (hle : pool.maxQueueSize_ - pool'.taskQueue_.length + (pool.producers j).stand.coming ≤
      pool.maxQueueSize_ - pool.taskQueue_.length + pc.stand.coming) : pool'.NotFullCovered := by
  simp only [Prod.mk.injEq] at hmoved
  unfold NotFullCovered
  rw [producerStand_update hmoved.2.2, hmoved.1, hmoved.2.1]
  refine NoLostWakeup.update h hwaiting ?_
  simp only [producerStand]
  omega

/-- A producer owes a notification for each task it has pushed. -/
theorem NotEmptyCovered.move_producer {pool pool' : ThreadPool τ threadNum ι} (h : pool.NotEmptyCovered)
    {j : ι} {pc : ProducerPc τ}
    (hmoved : (pool'.workers, pool'.producers) = (pool.workers, Function.update pool.producers j pc))
    (hle : pool'.taskQueue_.length + (pool.producers j).owes ≤ pool.taskQueue_.length + pc.owes) :
    pool'.NotEmptyCovered := by
  simp only [Prod.mk.injEq] at hmoved
  have hstand : pool'.workerStand = pool.workerStand := by
    funext i
    rw [workerStand, workerStand, hmoved.1]
  have hsum := Monitor.sum_update ProducerPc.owes pool.producers j pc
  unfold NotEmptyCovered
  rw [hstand, hmoved.2]
  refine NoLostWakeup.mono h ?_
  omega

theorem WakeupInv.stopped_step {pool pool' : ThreadPool τ threadNum ι} {l : PoolLabel τ threadNum ι}
    (hinv : pool.WakeupInv) (hstep : pool.step l = some pool') : pool'.stopper ≠ .idle → pool'.running_ = false := by
  cases step_moves hstep with
  | stops hpc hrunning => exact fun _ => rfl
  | stopLocks hpc hfree => exact fun _ => hinv.stopped (by simp [hpc])
  | notifiesAll hpc => exact fun _ => hinv.stopped (by simp [hpc])
  | stopReturns hpc => exact fun _ => hinv.stopped (by simp [hpc])
  | joins hpc hleft => exact fun _ => hinv.stopped (by simp [hpc])
  | producerNotifies hpc hwake =>
    rename_i j wake
    cases wake <;> exact hinv.stopped
  | workerNotifies hpc hwake =>
    rename_i i wake task
    cases wake <;> exact hinv.stopped
  | _ => exact hinv.stopped

/-- One step keeps what there is to know of `notEmpty_`. -/
theorem WakeupInv.notEmpty_step {pool pool' : ThreadPool τ threadNum ι} {l : PoolLabel τ threadNum ι}
    (hinv : pool.WakeupInv) (hstep : pool.step l = some pool') : pool'.NotEmptyCovered := by
  have hcovered := hinv.notEmpty
  cases step_moves hstep with
  | inline hnone => exact hcovered
  | calls hpc hrunning => exact hcovered.move_producer rfl (by simp [hpc, ProducerPc.owes])
  | producerLocks hpc hfree =>
    exact hcovered.move_producer rfl (by obtain hpc | hpc := hpc <;> simp [hpc, ProducerPc.owes])
  | producerSleeps hpc hfull => exact hcovered.move_producer rfl (by simp [hpc, ProducerPc.owes])
  | producerPasses hpc hroom => exact hcovered.move_producer rfl (by simp [hpc, ProducerPc.owes])
  | producerWaits hpc => exact hcovered.move_producer rfl (by simp [hpc, ProducerPc.owes])
  | pushes hpc => exact hcovered.move_producer rfl (by simp [hpc, ProducerPc.owes])
  | producerNotifies hpc hwake =>
    rename_i j wake
    have hsum := Monitor.sum_update ProducerPc.owes pool.producers j .returning
    have howes : (pool.producers j).owes = 1 := congrArg ProducerPc.owes hpc
    have hnotified : NoLostWakeup (pool.wakeWorker wake).workerStand (pool.wakeWorker wake).taskQueue_.length
        (∑ k, (Function.update pool.producers j .returning k).owes) := by
      rw [wakeWorker_workerStand hwake, wakeWorker_taskQueue_]
      exact NoLostWakeup.notify hcovered hwake (by omega)
    rw [← wakeWorker_producers pool wake] at hnotified
    exact hnotified
  | producerReturns hpc => exact hcovered.move_producer rfl (by simp [hpc, ProducerPc.owes])
  | workerLoops hpc hrunning =>
    exact hcovered.move_worker rfl (by simp [WorkerPc.stand]) (by simp [hpc, WorkerPc.stand])
  | workerLeaves hpc hstopped =>
    exact hcovered.move_worker rfl (by simp [WorkerPc.stand]) (by simp [hpc, WorkerPc.stand])
  | workerLocks hpc hfree =>
    refine hcovered.move_worker rfl (by simp [WorkerPc.stand]) ?_
    obtain hpc | hpc := hpc <;> simp [hpc, WorkerPc.stand, Stand.coming]
  | workerSleeps hpc hempty hrunning => exact .of_empty hempty
  | workerPasses hpc =>
    exact hcovered.move_worker rfl (by simp [WorkerPc.stand]) (by simp [hpc, WorkerPc.stand])
  | workerWaits hpc =>
    rename_i i wake
    have hempty := hinv.mutex.workers i
    rw [hpc] at hempty
    exact .of_empty hempty
  | pops hpc hqueue =>
    exact hcovered.move_worker rfl (by simp [WorkerPc.stand]) (by simp [hpc, hqueue, WorkerPc.stand, Stand.coming])
  | findsNone hpc hqueue => exact .of_empty hqueue
  | workerNotifies hpc hwake =>
    rename_i i wake task
    have hwoken : (pool.wakeProducer wake).NotEmptyCovered := by
      unfold NotEmptyCovered
      rw [wakeProducer_owes, wakeProducer_taskQueue_, workerStand_wakeProducer]
      exact hcovered
    refine hwoken.move_worker rfl (by simp [WorkerPc.stand]) ?_
    simp [hpc, WorkerPc.stand]
  | returnsNone hpc => exact hcovered.move_worker rfl (by simp [WorkerPc.stand]) (by simp [hpc, WorkerPc.stand])
  | returnsSome hpc => exact hcovered.move_worker rfl (by simp [WorkerPc.stand]) (by simp [hpc, WorkerPc.stand])
  | executes hpc => exact hcovered.move_worker rfl (by simp [WorkerPc.stand]) (by simp [hpc, WorkerPc.stand])
  | stops hpc hrunning => exact hcovered
  | stopLocks hpc hfree => exact hcovered
  | notifiesAll hpc => exact .of_none (fun i => WorkerPc.stand_wake_ne _) _ _
  | stopReturns hpc => exact hcovered
  | joins hpc hleft => exact hcovered
  | wakesProducer hpc => exact hcovered.move_producer rfl (by simp [hpc, ProducerPc.owes])
  | wakesWorker hpc =>
    exact hcovered.move_worker rfl (by simp [WorkerPc.stand]) (by simp [hpc, WorkerPc.stand, Stand.coming])

/-- One step keeps what there is to know of `notFull_`. -/
theorem WakeupInv.notFull_step {pool pool' : ThreadPool τ threadNum ι} {l : PoolLabel τ threadNum ι}
    (hinv : pool.WakeupInv) (hstep : pool.step l = some pool') : pool'.NotFullCovered := by
  have hcovered := hinv.notFull
  cases step_moves hstep with
  | inline hnone => exact hcovered
  | calls hpc hrunning =>
    exact hcovered.move_producer rfl (by simp [ProducerPc.stand]) (by simp [hpc, ProducerPc.stand])
  | producerLocks hpc hfree =>
    refine hcovered.move_producer rfl (by simp [ProducerPc.stand]) ?_
    obtain hpc | hpc := hpc <;> simp [hpc, ProducerPc.stand, Stand.coming]
  | producerSleeps hpc hfull => exact .of_full hfull
  | producerPasses hpc hroom =>
    exact hcovered.move_producer rfl (by simp [ProducerPc.stand]) (by simp [hpc, ProducerPc.stand])
  | producerWaits hpc =>
    rename_i j wake task
    have hfull := hinv.mutex.producers j
    rw [hpc] at hfull
    exact .of_full hfull
  | pushes hpc =>
    rename_i j wake task
    have hroom := hinv.mutex.producers j
    rw [hpc] at hroom
    refine hcovered.move_producer rfl (by simp [ProducerPc.stand]) ?_
    have hroom : pool.taskQueue_.length < pool.maxQueueSize_ := hroom
    simp only [hpc, ProducerPc.stand, Stand.coming, List.length_append, List.length_singleton]
    omega
  | producerNotifies hpc hwake =>
    rename_i j wake
    have hwoken : (pool.wakeWorker wake).NotFullCovered := by
      unfold NotFullCovered
      rw [wakeWorker_owes, wakeWorker_taskQueue_, wakeWorker_maxQueueSize_, producerStand_wakeWorker]
      exact hcovered
    refine hwoken.move_producer rfl (by simp [ProducerPc.stand]) ?_
    simp [hpc, ProducerPc.stand]
  | producerReturns hpc =>
    exact hcovered.move_producer rfl (by simp [ProducerPc.stand]) (by simp [hpc, ProducerPc.stand])
  | workerLoops hpc hrunning => exact hcovered.move_worker rfl (by simp [hpc, WorkerPc.owes])
  | workerLeaves hpc hstopped => exact hcovered.move_worker rfl (by simp [hpc, WorkerPc.owes])
  | workerLocks hpc hfree =>
    exact hcovered.move_worker rfl (by obtain hpc | hpc := hpc <;> simp [hpc, WorkerPc.owes])
  | workerSleeps hpc hempty hrunning => exact hcovered.move_worker rfl (by simp [hpc, WorkerPc.owes])
  | workerPasses hpc => exact hcovered.move_worker rfl (by simp [hpc, WorkerPc.owes])
  | workerWaits hpc => exact hcovered.move_worker rfl (by simp [hpc, WorkerPc.owes])
  | pops hpc hqueue =>
    refine hcovered.move_worker rfl ?_
    simp only [hpc, hqueue, WorkerPc.owes, List.length_cons]
    omega
  | findsNone hpc hqueue => exact hcovered.move_worker rfl (by simp [hpc, WorkerPc.owes])
  | workerNotifies hpc hwake =>
    rename_i i wake task
    have hsum := Monitor.sum_update WorkerPc.owes pool.workers i (.returning task)
    have howes : (pool.workers i).owes = 1 := congrArg WorkerPc.owes hpc
    have hnotified : NoLostWakeup (pool.wakeProducer wake).producerStand
        ((pool.wakeProducer wake).maxQueueSize_ - (pool.wakeProducer wake).taskQueue_.length)
        (∑ k, (Function.update pool.workers i (.returning task) k).owes) := by
      rw [wakeProducer_producerStand hwake, wakeProducer_maxQueueSize_, wakeProducer_taskQueue_]
      exact NoLostWakeup.notify hcovered hwake (by omega)
    rw [← wakeProducer_workers pool wake] at hnotified
    exact hnotified
  | returnsNone hpc => exact hcovered.move_worker rfl (by simp [hpc, WorkerPc.owes])
  | returnsSome hpc => exact hcovered.move_worker rfl (by simp [hpc, WorkerPc.owes])
  | executes hpc => exact hcovered.move_worker rfl (by simp [hpc, WorkerPc.owes])
  | stops hpc hrunning => exact hcovered
  | stopLocks hpc hfree => exact hcovered
  | notifiesAll hpc =>
    unfold NotFullCovered
    simp only [WorkerPc.owes_wake]
    exact hcovered
  | stopReturns hpc => exact hcovered
  | joins hpc hleft => exact hcovered
  | wakesProducer hpc =>
    exact hcovered.move_producer rfl (by simp [ProducerPc.stand]) (by simp [hpc, ProducerPc.stand, Stand.coming])
  | wakesWorker hpc => exact hcovered.move_worker rfl (by simp [hpc, WorkerPc.owes])

/-- After the `notify_all` of `stop` the workers that test the queue find `running_` false and go on. -/
theorem WakeupInv.awake_step {pool pool' : ThreadPool τ threadNum ι} {l : PoolLabel τ threadNum ι}
    (hinv : pool.WakeupInv) (hstep : pool.step l = some pool') :
    pool'.stopper.hasNotified = true → ∀ i, pool'.workers i ≠ .sleeping ∧ pool'.workers i ≠ .waiting := by
  have hstopped (hnotified : pool.stopper.hasNotified = true) : pool.running_ = false := by
    refine hinv.stopped fun hidle => ?_
    rw [hidle] at hnotified
    cases hnotified
  have hmove {i : Fin threadNum} {pc : WorkerPc τ} (hpc : pc ≠ .sleeping ∧ pc ≠ .waiting)
      (hnotified : pool.stopper.hasNotified = true) (k : Fin threadNum) :
      Function.update pool.workers i pc k ≠ .sleeping ∧ Function.update pool.workers i pc k ≠ .waiting :=
    (Function.forall_update_iff pool.workers fun _ pc => pc ≠ .sleeping ∧ pc ≠ .waiting).mpr
      ⟨hpc, fun k _ => hinv.awake hnotified k⟩ k
  cases step_moves hstep with
  | producerNotifies hpc hwake =>
    rename_i j wake
    cases wake with
    | none => exact hinv.awake
    | some i =>
      cases hwaiting : pool.workers i with
      | waiting =>
        intro hnotified
        exact ((hinv.awake hnotified i).2 hwaiting).elim
      | _ => simp [Monitor.Notifies, workerStand, hwaiting, WorkerPc.stand] at hwake
  | workerLoops hpc hrunning => exact hmove (by simp)
  | workerLeaves hpc hfalse => exact hmove (by simp)
  | workerLocks hpc hfree => exact hmove (by simp)
  | workerSleeps hpc hempty hrunning =>
    intro hnotified
    rw [hstopped hnotified] at hrunning
    cases hrunning
  | workerPasses hpc => exact hmove (by simp)
  | workerWaits hpc => exact fun hnotified => ((hinv.awake hnotified _).1 hpc).elim
  | pops hpc hqueue => exact hmove (by simp)
  | findsNone hpc hqueue => exact hmove (by simp)
  | workerNotifies hpc hwake =>
    rename_i i wake task
    cases wake <;> exact hmove (by simp)
  | returnsNone hpc => exact hmove (by simp)
  | returnsSome hpc => exact hmove (by simp)
  | executes hpc => exact hmove (by simp)
  | stops hpc hrunning => exact fun hnotified => by cases hnotified
  | stopLocks hpc hfree => exact fun hnotified => by cases hnotified
  | notifiesAll hpc =>
    -- `stop` owns the mutex, so that no worker is between its test and its wait.
    intro _ i
    have howner : pool.mutex_ = some .stopper := (hinv.mutex.exclusive .stopper).mp (congrArg StopPc.inside hpc)
    have houtside : (pool.workers i).inside = false := hinv.mutex.worker_outside (by simp [howner])
    cases hworker : pool.workers i with
    | sleeping =>
      rw [hworker] at houtside
      cases houtside
    | _ => simp [hworker, WorkerPc.wake]
  | stopReturns hpc => exact fun _ => hinv.awake (congrArg StopPc.hasNotified hpc)
  | joins hpc hleft => exact fun _ => hinv.awake (congrArg StopPc.hasNotified hpc)
  | wakesWorker hpc => exact hmove (by simp)
  | _ => exact hinv.awake

theorem WakeupInv.step {pool pool' : ThreadPool τ threadNum ι} {l : PoolLabel τ threadNum ι} (hinv : pool.WakeupInv)
    (hstep : pool.step l = some pool') : pool'.WakeupInv where
  mutex := hinv.mutex.step hstep
  notEmpty := hinv.notEmpty_step hstep
  notFull := hinv.notFull_step hstep
  stopped := hinv.stopped_step hstep
  awake := hinv.awake_step hstep

theorem exec_wakeupInv {maxQueueSize_ : Nat} {labels : List (PoolLabel τ threadNum ι)}
    {pool : ThreadPool τ threadNum ι} (hrun : Run.exec step (init maxQueueSize_) labels = some pool) :
    pool.WakeupInv :=
  Run.exec_preserves (fun _ _ _ hinv hstep => hinv.step hstep) (init_wakeupInv maxQueueSize_) hrun

/-- No wakeup is lost in the monitor. In a state with the mutex free there are at least as many woken workers as
queued tasks if a worker waits on `notEmpty_`, and at least as many woken producers as free places if a producer
waits on `notFull_`; after the `notify_all` of `stop` no worker waits. -/
theorem no_wakeup_lost {maxQueueSize_ : Nat} {labels : List (PoolLabel τ threadNum ι)}
    {pool : ThreadPool τ threadNum ι} (hrun : Run.exec step (init maxQueueSize_) labels = some pool) :
    (pool.mutex_ = none →
      ((∃ i, pool.workerStand i = .waiting) →
        pool.taskQueue_.length ≤ (Finset.univ.filter fun i => pool.workerStand i = .woken).card) ∧
      ((∃ j, pool.producerStand j = .waiting) →
        pool.maxQueueSize_ ≤
          pool.taskQueue_.length + (Finset.univ.filter fun j => pool.producerStand j = .woken).card)) ∧
      (pool.stopper.hasNotified = true → ∀ i, pool.workerStand i ≠ .waiting) := by
  have hinv := exec_wakeupInv hrun
  refine ⟨fun hfree => ⟨fun hwaiting => ?_, fun hwaiting => ?_⟩, fun hnotified i => ?_⟩
  · have houtside (i : Fin threadNum) : (pool.workers i).inside = false := hinv.mutex.worker_outside (by simp [hfree])
    have hsettled (j : ι) : (pool.producers j).owes = 0 :=
      ProducerPc.owes_of_outside (hinv.mutex.producer_outside (by simp [hfree]))
    have hcovered := hinv.notEmpty hwaiting
    simp only [workerStand, WorkerPc.coming_of_outside (houtside _), hsettled, Finset.sum_const_zero] at hcovered
    rw [Finset.card_filter]
    exact hcovered
  · have houtside (j : ι) : (pool.producers j).inside = false := hinv.mutex.producer_outside (by simp [hfree])
    have hsettled (i : Fin threadNum) : (pool.workers i).owes = 0 :=
      WorkerPc.owes_of_outside (hinv.mutex.worker_outside (by simp [hfree]))
    have hcovered := hinv.notFull hwaiting
    simp only [producerStand, ProducerPc.coming_of_outside (houtside _), hsettled, Finset.sum_const_zero] at hcovered
    rw [Finset.card_filter]
    exact Nat.sub_le_iff_le_add'.mp hcovered
  · have hawake := hinv.awake hnotified i
    cases hworker : pool.workers i <;> simp_all [workerStand, WorkerPc.stand]

/-- Two workers wait, a push wakes one of them, and a second producer finds the queue full. -/
theorem no_wakeup_lost_one_push : ∃ (labels : List (PoolLabel Nat 2 (Fin 2))) (pool : ThreadPool Nat 2 (Fin 2)),
    Run.exec step (init 1) labels = some pool ∧
    pool.mutex_ = none ∧ pool.workerStand 1 = .waiting ∧ pool.producerStand 1 = .waiting ∧
      pool.taskQueue_.length ≤ (Finset.univ.filter fun i => pool.workerStand i = .woken).card ∧
      pool.maxQueueSize_ ≤
        pool.taskQueue_.length + (Finset.univ.filter fun j => pool.producerStand j = .woken).card := by
  let labels : List (PoolLabel Nat 2 (Fin 2)) :=
    List.flatten [List.replicate 4 (.worker 0 none), List.replicate 4 (.worker 1 none),
      [.runTask 0 (some 7), .producer 0 none, .producer 0 none, .producer 0 none, .producer 0 (some 0),
        .producer 0 none, .runTask 1 (some 8), .producer 1 none, .producer 1 none, .producer 1 none]]
  obtain ⟨pool, hrun, hfree, hworker, hproducer⟩ := Run.Reaches.exists
    (show Run.Reaches step (init 1) labels
      (fun pool => pool.mutex_ = none ∧ pool.workerStand 1 = .waiting ∧ pool.producerStand 1 = .waiting) by
        decide +kernel)
  obtain ⟨hworkers, hproducers⟩ := (no_wakeup_lost hrun).1 hfree
  exact ⟨labels, pool, hrun, hfree, hworker, hproducer, hworkers ⟨1, hworker⟩, hproducers ⟨1, hproducer⟩⟩

end ThreadPool

end mudong.ev
