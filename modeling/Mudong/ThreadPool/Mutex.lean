import Mudong.Lib.Run
import Mudong.ThreadPool.Moves

namespace mudong.ev

/-- What a worker that owns the mutex has seen of the queue still holds. -/
def WorkerPc.Fits {τ : Type} (taskQueue_ : List (Option τ)) : WorkerPc τ → Prop
  | .sleeping => taskQueue_ = []
  | _ => True

/-- What a producer that owns the mutex has seen of the queue still holds. -/
def ProducerPc.Fits {τ : Type} (maxQueueSize_ : Nat) (taskQueue_ : List (Option τ)) : ProducerPc τ → Prop
  | .sleeping _ => maxQueueSize_ ≤ taskQueue_.length
  | .pushing _ => taskQueue_.length < maxQueueSize_
  | _ => True

theorem WorkerPc.Fits.of_outside {τ : Type} {pc : WorkerPc τ} (houtside : pc.inside = false)
    (taskQueue_ : List (Option τ)) : pc.Fits taskQueue_ := by
  cases pc with
  | sleeping => cases houtside
  | _ => trivial

theorem ProducerPc.Fits.of_outside {τ : Type} {pc : ProducerPc τ} (houtside : pc.inside = false) (maxQueueSize_ : Nat)
    (taskQueue_ : List (Option τ)) : pc.Fits maxQueueSize_ taskQueue_ := by
  cases pc with
  | sleeping task => cases houtside
  | pushing task => cases houtside
  | _ => trivial

@[simp] theorem WorkerPc.inside_wake {τ : Type} (pc : WorkerPc τ) : pc.wake.inside = pc.inside := by
  cases pc <;> rfl

@[simp] theorem ProducerPc.inside_wake {τ : Type} (pc : ProducerPc τ) : pc.wake.inside = pc.inside := by
  cases pc <;> rfl

theorem WorkerPc.Fits.wake {τ : Type} {pc : WorkerPc τ} {taskQueue_ : List (Option τ)} (h : pc.Fits taskQueue_) :
    pc.wake.Fits taskQueue_ := by
  cases pc with
  | sleeping => exact h
  | _ => trivial

theorem ProducerPc.Fits.wake {τ : Type} {pc : ProducerPc τ} {maxQueueSize_ : Nat} {taskQueue_ : List (Option τ)}
    (h : pc.Fits maxQueueSize_ taskQueue_) : pc.wake.Fits maxQueueSize_ taskQueue_ := by
  cases pc with
  | sleeping task => exact h
  | pushing task => exact h
  | _ => trivial

namespace ThreadPool

variable {τ : Type} {threadNum : Nat} {ι : Type}

/-- The mutex excludes, what its owner has seen is so, and the queue is bounded. -/
structure MutexInv (pool : ThreadPool τ threadNum ι) : Prop where
  exclusive : Monitor.Exclusive pool.mutex_ pool.inside
  workers : ∀ i, (pool.workers i).Fits pool.taskQueue_
  producers : ∀ j, (pool.producers j).Fits pool.maxQueueSize_ pool.taskQueue_
  bound : pool.taskQueue_.length ≤ pool.maxQueueSize_

theorem init_mutexInv (maxQueueSize_ : Nat) : (init maxQueueSize_ : ThreadPool τ threadNum ι).MutexInv := by
  refine ⟨fun t => ?_, fun _ => trivial, fun _ => trivial, Nat.zero_le _⟩
  cases t <;> simp [init, inside, WorkerPc.inside, ProducerPc.inside, StopPc.inside]

theorem MutexInv.worker_owns {pool : ThreadPool τ threadNum ι} (hinv : pool.MutexInv) {i : Fin threadNum}
    (hinside : (pool.workers i).inside = true) : pool.mutex_ = some (.worker i) :=
  (hinv.exclusive (.worker i)).mp hinside

theorem MutexInv.producer_owns {pool : ThreadPool τ threadNum ι} (hinv : pool.MutexInv) {j : ι}
    (hinside : (pool.producers j).inside = true) : pool.mutex_ = some (.producer j) :=
  (hinv.exclusive (.producer j)).mp hinside

theorem MutexInv.worker_outside {pool : ThreadPool τ threadNum ι} (hinv : pool.MutexInv) {i : Fin threadNum}
    (hne : pool.mutex_ ≠ some (.worker i)) : (pool.workers i).inside = false :=
  Bool.eq_false_iff.mpr fun hinside => hne (hinv.worker_owns hinside)

theorem MutexInv.producer_outside {pool : ThreadPool τ threadNum ι} (hinv : pool.MutexInv) {j : ι}
    (hne : pool.mutex_ ≠ some (.producer j)) : (pool.producers j).inside = false :=
  Bool.eq_false_iff.mpr fun hinside => hne (hinv.producer_owns hinside)

variable [DecidableEq ι]

/-- A worker moves, and perhaps the mutex and the queue with it. -/
theorem MutexInv.move_worker {pool pool' : ThreadPool τ threadNum ι} (hinv : pool.MutexInv) {i : Fin threadNum}
    {pc : WorkerPc τ}
    (hmoved : (pool'.maxQueueSize_, pool'.workers, pool'.producers, pool'.stopper) =
      (pool.maxQueueSize_, Function.update pool.workers i pc, pool.producers, pool.stopper))
    (hexclusive : Monitor.Exclusive pool'.mutex_ (Function.update pool.inside (.worker i) pc.inside))
    (hqueue : pool'.taskQueue_ = pool.taskQueue_ ∨ pool.mutex_ = some (.worker i))
    (hfits : pc.Fits pool'.taskQueue_) (hbound : pool'.taskQueue_.length ≤ pool'.maxQueueSize_) :
    pool'.MutexInv := by
  simp only [Prod.mk.injEq] at hmoved
  obtain ⟨hmax, hworkers, hproducers, hstopper⟩ := hmoved
  have hinside : pool'.inside = Function.update pool.inside (.worker i) pc.inside := by
    funext t
    cases t with
    | worker k =>
      by_cases hk : k = i
      · simp [hk, inside, hworkers]
      · simp [hk, inside, hworkers]
    | producer k => simp [inside, hproducers]
    | stopper => simp [inside, hstopper]
  have hothers : (∀ k, k ≠ i → (pool.workers k).Fits pool'.taskQueue_) ∧
      ∀ j, (pool.producers j).Fits pool.maxQueueSize_ pool'.taskQueue_ := by
    obtain hqueue | howner := hqueue
    · rw [hqueue]
      exact ⟨fun k _ => hinv.workers k, hinv.producers⟩
    · refine ⟨fun k hk => .of_outside (hinv.worker_outside ?_) _, fun j => .of_outside (hinv.producer_outside ?_) _ _⟩
      · simpa [howner] using Ne.symm hk
      · simp [howner]
  refine ⟨by rw [hinside]; exact hexclusive, fun k => ?_, fun j => ?_, hbound⟩
  · rw [hworkers]
    by_cases hk : k = i
    · rw [hk, Function.update_self]
      exact hfits
    · rw [Function.update_of_ne hk]
      exact hothers.1 k hk
  · rw [hproducers, hmax]
    exact hothers.2 j

/-- A producer moves, and perhaps the mutex and the queue with it. -/
theorem MutexInv.move_producer {pool pool' : ThreadPool τ threadNum ι} (hinv : pool.MutexInv) {j : ι}
    {pc : ProducerPc τ}
    (hmoved : (pool'.maxQueueSize_, pool'.workers, pool'.producers, pool'.stopper) =
      (pool.maxQueueSize_, pool.workers, Function.update pool.producers j pc, pool.stopper))
    (hexclusive : Monitor.Exclusive pool'.mutex_ (Function.update pool.inside (.producer j) pc.inside))
    (hqueue : pool'.taskQueue_ = pool.taskQueue_ ∨ pool.mutex_ = some (.producer j))
    (hfits : pc.Fits pool'.maxQueueSize_ pool'.taskQueue_)
    (hbound : pool'.taskQueue_.length ≤ pool'.maxQueueSize_) : pool'.MutexInv := by
  simp only [Prod.mk.injEq] at hmoved
  obtain ⟨hmax, hworkers, hproducers, hstopper⟩ := hmoved
  have hinside : pool'.inside = Function.update pool.inside (.producer j) pc.inside := by
    funext t
    cases t with
    | worker k => simp [inside, hworkers]
    | producer k =>
      by_cases hk : k = j
      · simp [hk, inside, hproducers]
      · simp [hk, inside, hproducers]
    | stopper => simp [inside, hstopper]
  have hothers : (∀ i, (pool.workers i).Fits pool'.taskQueue_) ∧
      ∀ k, k ≠ j → (pool.producers k).Fits pool.maxQueueSize_ pool'.taskQueue_ := by
    obtain hqueue | howner := hqueue
    · rw [hqueue]
      exact ⟨hinv.workers, fun k _ => hinv.producers k⟩
    · refine ⟨fun i => .of_outside (hinv.worker_outside ?_) _, fun k hk => .of_outside (hinv.producer_outside ?_) _ _⟩
      · simp [howner]
      · simpa [howner] using Ne.symm hk
  refine ⟨by rw [hinside]; exact hexclusive, fun i => ?_, fun k => ?_, hbound⟩
  · rw [hworkers]
    exact hothers.1 i
  · rw [hproducers]
    by_cases hk : k = j
    · rw [hk, Function.update_self]
      exact hfits
    · rw [Function.update_of_ne hk, hmax]
      exact hothers.2 k hk

/-- The caller of `stop` moves, and perhaps the mutex with it, and wakes workers. -/
theorem MutexInv.move_stopper {pool pool' : ThreadPool τ threadNum ι} (hinv : pool.MutexInv)
    (hmoved : (pool'.maxQueueSize_, pool'.taskQueue_, pool'.producers) =
      (pool.maxQueueSize_, pool.taskQueue_, pool.producers))
    (hworkers : ∀ i, pool'.workers i = pool.workers i ∨ pool'.workers i = (pool.workers i).wake)
    (hexclusive : Monitor.Exclusive pool'.mutex_ (Function.update pool.inside .stopper pool'.stopper.inside)) :
    pool'.MutexInv := by
  simp only [Prod.mk.injEq] at hmoved
  obtain ⟨hmax, hqueue, hproducers⟩ := hmoved
  have hinside : pool'.inside = Function.update pool.inside .stopper pool'.stopper.inside := by
    funext t
    cases t with
    | worker k =>
      obtain hk | hk := hworkers k
      · simp [inside, hk]
      · simp [inside, hk]
    | producer k => simp [inside, hproducers]
    | stopper => simp [inside]
  refine ⟨by rw [hinside]; exact hexclusive, fun i => ?_, fun j => ?_, ?_⟩
  · rw [hqueue]
    obtain hi | hi := hworkers i
    · rw [hi]
      exact hinv.workers i
    · rw [hi]
      exact (hinv.workers i).wake
  · rw [hproducers, hqueue, hmax]
    exact hinv.producers j
  · rw [hqueue, hmax]
    exact hinv.bound

theorem MutexInv.wakeWorker {pool : ThreadPool τ threadNum ι} (hinv : pool.MutexInv) (wake : Option (Fin threadNum)) :
    (pool.wakeWorker wake).MutexInv := by
  cases wake with
  | none => exact hinv
  | some i =>
    exact hinv.move_worker rfl (hinv.exclusive.stay (WorkerPc.inside_wake _)) (Or.inl rfl) (hinv.workers i).wake hinv.bound

theorem MutexInv.wakeProducer {pool : ThreadPool τ threadNum ι} (hinv : pool.MutexInv) (wake : Option ι) :
    (pool.wakeProducer wake).MutexInv := by
  cases wake with
  | none => exact hinv
  | some j =>
    exact hinv.move_producer rfl (hinv.exclusive.stay (ProducerPc.inside_wake _)) (Or.inl rfl) (hinv.producers j).wake
      hinv.bound

theorem MutexInv.step [Fintype ι] {pool pool' : ThreadPool τ threadNum ι} {l : PoolLabel τ threadNum ι}
    (hinv : pool.MutexInv) (hstep : pool.step l = some pool') : pool'.MutexInv := by
  have hexclusive := hinv.exclusive
  cases step_moves hstep with
  | inline hnone => exact hinv
  | calls hpc hrunning =>
    exact hinv.move_producer rfl (hexclusive.stay (congrArg ProducerPc.inside hpc).symm) (Or.inl rfl) trivial hinv.bound
  | producerLocks hpc hfree =>
    rw [hfree] at hexclusive
    exact hinv.move_producer rfl (hexclusive.acquire _) (Or.inl rfl) trivial hinv.bound
  | producerSleeps hpc hfull =>
    exact hinv.move_producer rfl (hexclusive.stay (congrArg ProducerPc.inside hpc).symm) (Or.inl rfl) hfull hinv.bound
  | producerPasses hpc hroom =>
    exact hinv.move_producer rfl (hexclusive.stay (congrArg ProducerPc.inside hpc).symm) (Or.inl rfl) hroom hinv.bound
  | producerWaits hpc =>
    rw [hinv.producer_owns (by rw [hpc]; rfl)] at hexclusive
    exact hinv.move_producer rfl hexclusive.release (Or.inl rfl) trivial hinv.bound
  | pushes hpc =>
    rename_i j wake task
    have howner := hinv.producer_owns (j := j) (by rw [hpc]; rfl)
    have hroom := hinv.producers j
    rw [hpc] at hroom
    refine hinv.move_producer rfl (hexclusive.stay (congrArg ProducerPc.inside hpc).symm) (Or.inr howner) trivial ?_
    rw [List.length_append]
    exact hroom
  | producerNotifies hpc hwake =>
    rename_i j wake
    have hwoken := hinv.wakeWorker wake
    have hpc' : (pool.wakeWorker wake).producers j = .notifying := by rw [wakeWorker_producers, hpc]
    exact hwoken.move_producer rfl (hwoken.exclusive.stay (congrArg ProducerPc.inside hpc').symm) (Or.inl rfl) trivial
      hwoken.bound
  | producerReturns hpc =>
    rw [hinv.producer_owns (by rw [hpc]; rfl)] at hexclusive
    exact hinv.move_producer rfl hexclusive.release (Or.inl rfl) trivial hinv.bound
  | workerLoops hpc hrunning =>
    exact hinv.move_worker rfl (hexclusive.stay (congrArg WorkerPc.inside hpc).symm) (Or.inl rfl) trivial hinv.bound
  | workerLeaves hpc hstopped =>
    exact hinv.move_worker rfl (hexclusive.stay (congrArg WorkerPc.inside hpc).symm) (Or.inl rfl) trivial hinv.bound
  | workerLocks hpc hfree =>
    rw [hfree] at hexclusive
    exact hinv.move_worker rfl (hexclusive.acquire _) (Or.inl rfl) trivial hinv.bound
  | workerSleeps hpc hempty hrunning =>
    exact hinv.move_worker rfl (hexclusive.stay (congrArg WorkerPc.inside hpc).symm) (Or.inl rfl) hempty hinv.bound
  | workerPasses hpc =>
    exact hinv.move_worker rfl (hexclusive.stay (congrArg WorkerPc.inside hpc).symm) (Or.inl rfl) trivial hinv.bound
  | workerWaits hpc =>
    rw [hinv.worker_owns (by rw [hpc]; rfl)] at hexclusive
    exact hinv.move_worker rfl hexclusive.release (Or.inl rfl) trivial hinv.bound
  | pops hpc hqueue =>
    rename_i i wake task rest
    have howner := hinv.worker_owns (i := i) (by rw [hpc]; rfl)
    have hbound := hinv.bound
    rw [hqueue, List.length_cons] at hbound
    exact hinv.move_worker rfl (hexclusive.stay (congrArg WorkerPc.inside hpc).symm) (Or.inr howner) trivial
      (Nat.le_of_succ_le hbound)
  | findsNone hpc hqueue =>
    exact hinv.move_worker rfl (hexclusive.stay (congrArg WorkerPc.inside hpc).symm) (Or.inl rfl) trivial hinv.bound
  | workerNotifies hpc hwake =>
    rename_i i wake task
    have hwoken := hinv.wakeProducer wake
    have hpc' : (pool.wakeProducer wake).workers i = .notifying task := by rw [wakeProducer_workers, hpc]
    exact hwoken.move_worker rfl (hwoken.exclusive.stay (congrArg WorkerPc.inside hpc').symm) (Or.inl rfl) trivial
      hwoken.bound
  | returnsNone hpc =>
    rw [hinv.worker_owns (by rw [hpc]; rfl)] at hexclusive
    exact hinv.move_worker rfl hexclusive.release (Or.inl rfl) trivial hinv.bound
  | returnsSome hpc =>
    rw [hinv.worker_owns (by rw [hpc]; rfl)] at hexclusive
    exact hinv.move_worker rfl hexclusive.release (Or.inl rfl) trivial hinv.bound
  | executes hpc =>
    exact hinv.move_worker rfl (hexclusive.stay (congrArg WorkerPc.inside hpc).symm) (Or.inl rfl) trivial hinv.bound
  | stops hpc hrunning =>
    exact hinv.move_stopper rfl (fun _ => Or.inl rfl) (hexclusive.stay (congrArg StopPc.inside hpc).symm)
  | stopLocks hpc hfree =>
    rw [hfree] at hexclusive
    exact hinv.move_stopper rfl (fun _ => Or.inl rfl) (hexclusive.acquire _)
  | notifiesAll hpc =>
    exact hinv.move_stopper rfl (fun _ => Or.inr rfl) (hexclusive.stay (congrArg StopPc.inside hpc).symm)
  | stopReturns hpc =>
    have howner : pool.mutex_ = some .stopper := (hinv.exclusive .stopper).mp (congrArg StopPc.inside hpc)
    rw [howner] at hexclusive
    exact hinv.move_stopper rfl (fun _ => Or.inl rfl) hexclusive.release
  | joins hpc hleft =>
    exact hinv.move_stopper rfl (fun _ => Or.inl rfl) (hexclusive.stay (congrArg StopPc.inside hpc).symm)
  | wakesProducer hpc =>
    exact hinv.move_producer rfl (hexclusive.stay (congrArg ProducerPc.inside hpc).symm) (Or.inl rfl) trivial hinv.bound
  | wakesWorker hpc =>
    exact hinv.move_worker rfl (hexclusive.stay (congrArg WorkerPc.inside hpc).symm) (Or.inl rfl) trivial hinv.bound

theorem exec_mutexInv [Fintype ι] {maxQueueSize_ : Nat} {labels : List (PoolLabel τ threadNum ι)}
    {pool : ThreadPool τ threadNum ι} (hrun : Run.exec step (init maxQueueSize_) labels = some pool) :
    pool.MutexInv :=
  Run.exec_preserves (fun _ _ _ hinv hstep => hinv.step hstep) (init_mutexInv maxQueueSize_) hrun

end ThreadPool

end mudong.ev
