import Mathlib.Algebra.Order.BigOperators.Group.Finset
import Mudong.ThreadPool.Wakeups

namespace mudong.ev

open Monitor (Stand)

/-- The worker is in `take` and has not come to the queue yet. -/
def WorkerPc.bound {τ : Type} : WorkerPc τ → Nat
  | .locking => 1
  | .testing => 1
  | .sleeping => 1
  | .waiting => 1
  | .woken => 1
  | .taking => 1
  | _ => 0

/-- The producer is in `runTask` and has not pushed its task yet. -/
def ProducerPc.unpushed {τ : Type} : ProducerPc τ → Nat
  | .locking _ => 1
  | .testing _ => 1
  | .sleeping _ => 1
  | .waiting _ => 1
  | .woken _ => 1
  | .pushing _ => 1
  | _ => 0

/-- The producer owns the mutex and has not been sent to sleep. -/
def ProducerPc.checking {τ : Type} : ProducerPc τ → Nat
  | .testing _ => 1
  | .pushing _ => 1
  | _ => 0

@[simp] theorem WorkerPc.bound_wake {τ : Type} (pc : WorkerPc τ) : pc.wake.bound = pc.bound := by
  cases pc <;> rfl

@[simp] theorem ProducerPc.unpushed_wake {τ : Type} (pc : ProducerPc τ) : pc.wake.unpushed = pc.unpushed := by
  cases pc <;> rfl

@[simp] theorem ProducerPc.checking_wake {τ : Type} (pc : ProducerPc τ) : pc.wake.checking = pc.checking := by
  cases pc <;> rfl

theorem ProducerPc.checking_of_outside {τ : Type} {pc : ProducerPc τ} (houtside : pc.inside = false) :
    pc.checking = 0 := by
  cases pc with
  | testing task => cases houtside
  | pushing task => cases houtside
  | _ => rfl

theorem ProducerPc.coming_le_unpushed {τ : Type} (pc : ProducerPc τ) : pc.stand.coming ≤ pc.unpushed := by
  cases pc <;> simp [stand, Stand.coming, unpushed]

namespace ThreadPool

variable {τ : Type} {threadNum : Nat} {ι : Type} [Fintype ι]

/-- The workers in `take` that have not come to the queue yet. -/
def bound (pool : ThreadPool τ threadNum ι) : Nat := ∑ i, (pool.workers i).bound

/-- The calls of `runTask` that have not pushed their task yet. -/
def unpushed (pool : ThreadPool τ threadNum ι) : Nat := ∑ j, (pool.producers j).unpushed

/-- The size of the queue when a producer that owns the mutex has pushed its task, if there is room. -/
def arrived (pool : ThreadPool τ threadNum ι) : Nat :=
  if pool.taskQueue_.length < pool.maxQueueSize_ then
    pool.taskQueue_.length + ∑ j, (pool.producers j).checking
  else pool.taskQueue_.length

/-- The tasks queued and on their way find room, together with the places that the workers in `take` are bound to
free. -/
def Drains (pool : ThreadPool τ threadNum ι) : Prop :=
  pool.taskQueue_.length + pool.unpushed ≤ pool.maxQueueSize_ + min pool.bound pool.arrived

instance (pool : ThreadPool τ threadNum ι) : Decidable pool.Drains := inferInstanceAs (Decidable (_ ≤ _))

theorem arrived_eq_length {pool : ThreadPool τ threadNum ι} (hzero : ∑ j, (pool.producers j).checking = 0) :
    pool.arrived = pool.taskQueue_.length := by
  rw [arrived, hzero, Nat.add_zero, ite_self]

/-- A change that leaves the numbers as they are. -/
theorem drains_congr {pool pool' : ThreadPool τ threadNum ι}
    (hsame : (pool'.maxQueueSize_, pool'.taskQueue_) = (pool.maxQueueSize_, pool.taskQueue_))
    (hbound : pool'.bound = pool.bound) (hunpushed : pool'.unpushed = pool.unpushed)
    (hchecking : pool.taskQueue_.length < pool.maxQueueSize_ →
      ∑ j, (pool'.producers j).checking = ∑ j, (pool.producers j).checking) : pool'.Drains ↔ pool.Drains := by
  simp only [Prod.mk.injEq] at hsame
  unfold Drains arrived
  rw [hsame.1, hsame.2, hbound, hunpushed]
  by_cases hroom : pool.taskQueue_.length < pool.maxQueueSize_
  · rw [if_pos hroom, if_pos hroom, hchecking hroom]
  · rw [if_neg hroom, if_neg hroom]

/-- A worker moves without coming to the queue. -/
theorem drains_move_worker {pool pool' : ThreadPool τ threadNum ι} {i : Fin threadNum} {pc : WorkerPc τ}
    (hmoved : (pool'.maxQueueSize_, pool'.taskQueue_, pool'.workers, pool'.producers) =
      (pool.maxQueueSize_, pool.taskQueue_, Function.update pool.workers i pc, pool.producers))
    (hpc : (pool.workers i).bound = pc.bound) : pool'.Drains ↔ pool.Drains := by
  simp only [Prod.mk.injEq] at hmoved
  obtain ⟨hmax, hqueue, hworkers, hproducers⟩ := hmoved
  have hsum := Monitor.sum_update WorkerPc.bound pool.workers i pc
  refine drains_congr (by rw [hmax, hqueue]) ?_ ?_ ?_
  · rw [bound, bound, hworkers]
    omega
  · rw [unpushed, unpushed, hproducers]
  · intro _
    rw [hproducers]

/-- A producer moves without pushing its task, and a free place does not change its mind. -/
theorem drains_move_producer [DecidableEq ι] {pool pool' : ThreadPool τ threadNum ι} {j : ι} {pc : ProducerPc τ}
    (hmoved : (pool'.maxQueueSize_, pool'.taskQueue_, pool'.workers, pool'.producers) =
      (pool.maxQueueSize_, pool.taskQueue_, pool.workers, Function.update pool.producers j pc))
    (hpc : (pool.producers j).unpushed = pc.unpushed)
    (hchecking : pool.taskQueue_.length < pool.maxQueueSize_ → (pool.producers j).checking = pc.checking) :
    pool'.Drains ↔ pool.Drains := by
  simp only [Prod.mk.injEq] at hmoved
  obtain ⟨hmax, hqueue, hworkers, hproducers⟩ := hmoved
  have hunpushed := Monitor.sum_update ProducerPc.unpushed pool.producers j pc
  have hsum := Monitor.sum_update ProducerPc.checking pool.producers j pc
  refine drains_congr (by rw [hmax, hqueue]) ?_ ?_ ?_
  · rw [bound, bound, hworkers]
  · rw [unpushed, unpushed, hproducers]
    omega
  · intro hroom
    rw [hproducers]
    have hchecking := hchecking hroom
    omega

/-- Woken workers are still in `take`. -/
theorem drains_wakeWorker (pool : ThreadPool τ threadNum ι) (wake : Option (Fin threadNum)) :
    (pool.wakeWorker wake).Drains ↔ pool.Drains := by
  cases wake with
  | none => exact Iff.rfl
  | some i => exact drains_move_worker rfl (WorkerPc.bound_wake _).symm

/-- Woken producers have still to push. -/
theorem drains_wakeProducer [DecidableEq ι] (pool : ThreadPool τ threadNum ι) (wake : Option ι) :
    (pool.wakeProducer wake).Drains ↔ pool.Drains := by
  cases wake with
  | none => exact Iff.rfl
  | some j =>
    exact drains_move_producer rfl (ProducerPc.unpushed_wake _).symm fun _ => (ProducerPc.checking_wake _).symm

/-- When a worker owns the mutex, no producer does. -/
theorem MutexInv.checking_eq_zero {pool : ThreadPool τ threadNum ι} (hmutex : pool.MutexInv) {i : Fin threadNum}
    (hinside : (pool.workers i).inside = true) : ∑ j, (pool.producers j).checking = 0 := by
  refine Finset.sum_eq_zero fun j _ => ProducerPc.checking_of_outside (hmutex.producer_outside ?_)
  simp [hmutex.worker_owns hinside]

/-- When a producer owns the mutex, no other one does. -/
theorem MutexInv.checking_eq_one {pool : ThreadPool τ threadNum ι} (hmutex : pool.MutexInv) {j : ι} {task : Option τ}
    (hpc : pool.producers j = .pushing task) : ∑ k, (pool.producers k).checking = 1 := by
  have howner := hmutex.producer_owns (j := j) (by rw [hpc]; rfl)
  have hothers (k : ι) (hk : k ≠ j) : (pool.producers k).checking = 0 := by
    refine ProducerPc.checking_of_outside (hmutex.producer_outside ?_)
    simpa [howner] using Ne.symm hk
  rw [Finset.sum_eq_single j (fun k _ hk => hothers k hk) (fun hj => (hj (Finset.mem_univ j)).elim), hpc]
  rfl

/-- A pop frees a place and lets the worker go. -/
theorem drains_pop {pool pool' : ThreadPool τ threadNum ι} (hmutex : pool.MutexInv)
    {i : Fin threadNum} {task : Option τ} {rest : List (Option τ)} {pc : WorkerPc τ} (hpc : pool.workers i = .taking)
    (hqueue : pool.taskQueue_ = task :: rest) (hbound : pc.bound = 0)
    (hmoved : (pool'.maxQueueSize_, pool'.taskQueue_, pool'.workers, pool'.producers) =
      (pool.maxQueueSize_, rest, Function.update pool.workers i pc, pool.producers)) : pool'.Drains ↔ pool.Drains := by
  simp only [Prod.mk.injEq] at hmoved
  obtain ⟨hmax, hqueue', hworkers, hproducers⟩ := hmoved
  have hzero := hmutex.checking_eq_zero (i := i) (by rw [hpc]; rfl)
  have hsum := Monitor.sum_update WorkerPc.bound pool.workers i pc
  have htaking : (pool.workers i).bound = 1 := by
    rw [hpc]
    rfl
  have hafter : pool'.arrived = rest.length := by
    rw [arrived_eq_length (by rw [hproducers, hzero]), hqueue']
  unfold Drains unpushed bound
  rw [hafter, arrived_eq_length hzero, hmax, hqueue', hqueue, hworkers, hproducers, List.length_cons]
  omega

/-- A worker that finds the queue empty has nothing to free. -/
theorem drains_findNone {pool pool' : ThreadPool τ threadNum ι} (hmutex : pool.MutexInv)
    {i : Fin threadNum} {pc : WorkerPc τ} (hpc : pool.workers i = .taking) (hqueue : pool.taskQueue_ = [])
    (hmoved : (pool'.maxQueueSize_, pool'.taskQueue_, pool'.workers, pool'.producers) =
      (pool.maxQueueSize_, pool.taskQueue_, Function.update pool.workers i pc, pool.producers)) :
    pool'.Drains ↔ pool.Drains := by
  simp only [Prod.mk.injEq] at hmoved
  obtain ⟨hmax, hqueue', hworkers, hproducers⟩ := hmoved
  have hzero := hmutex.checking_eq_zero (i := i) (by rw [hpc]; rfl)
  have hafter : pool'.arrived = 0 := by
    rw [arrived_eq_length (by rw [hproducers, hzero]), hqueue', hqueue, List.length_nil]
  unfold Drains unpushed
  rw [hafter, arrived_eq_length hzero, hmax, hqueue', hqueue, hproducers, List.length_nil, Nat.min_zero, Nat.min_zero]

variable [DecidableEq ι]

/-- A push turns a task on its way into a queued one. -/
theorem drains_push {pool pool' : ThreadPool τ threadNum ι} (hmutex : pool.MutexInv) {j : ι}
    {task : Option τ} (hpc : pool.producers j = .pushing task)
    (hmoved : (pool'.maxQueueSize_, pool'.taskQueue_, pool'.workers, pool'.producers) =
      (pool.maxQueueSize_, pool.taskQueue_ ++ [task], pool.workers, Function.update pool.producers j .notifying)) :
    pool'.Drains ↔ pool.Drains := by
  simp only [Prod.mk.injEq] at hmoved
  obtain ⟨hmax, hqueue, hworkers, hproducers⟩ := hmoved
  have hroom : pool.taskQueue_.length < pool.maxQueueSize_ := by
    have hfits := hmutex.producers j
    rwa [hpc] at hfits
  have hone := hmutex.checking_eq_one hpc
  have hchecking := Monitor.sum_update ProducerPc.checking pool.producers j .notifying
  have hunpushed := Monitor.sum_update ProducerPc.unpushed pool.producers j .notifying
  have hpushing : (pool.producers j).checking = 1 ∧ (pool.producers j).unpushed = 1 := by
    rw [hpc]
    exact ⟨rfl, rfl⟩
  have hnotifying : (.notifying : ProducerPc τ).checking = 0 ∧ (.notifying : ProducerPc τ).unpushed = 0 := ⟨rfl, rfl⟩
  have hafter : pool'.arrived = pool.taskQueue_.length + 1 := by
    rw [arrived_eq_length, hqueue, List.length_append, List.length_singleton]
    rw [hproducers]
    omega
  have hbefore : pool.arrived = pool.taskQueue_.length + 1 := by rw [arrived, if_pos hroom, hone]
  unfold Drains unpushed bound
  rw [hafter, hbefore, hmax, hqueue, hworkers, hproducers, List.length_append, List.length_singleton]
  omega

/-- A producer enters the mutex, where it may find a free place before the workers have taken theirs. -/
theorem drains_lock {pool pool' : ThreadPool τ threadNum ι} {j : ι} {task : Option τ}
    (hpc : pool.producers j = .locking task ∨ pool.producers j = .woken task)
    (hmoved : (pool'.maxQueueSize_, pool'.taskQueue_, pool'.workers, pool'.producers) =
      (pool.maxQueueSize_, pool.taskQueue_, pool.workers, Function.update pool.producers j (.testing task))) :
    (pool.Drains → pool'.Drains) ∧ (pool.bound = 0 → (pool'.Drains ↔ pool.Drains)) := by
  simp only [Prod.mk.injEq] at hmoved
  obtain ⟨hmax, hqueue, hworkers, hproducers⟩ := hmoved
  have hunpushed := Monitor.sum_update ProducerPc.unpushed pool.producers j (.testing task)
  have hchecking := Monitor.sum_update ProducerPc.checking pool.producers j (.testing task)
  have hlocking : (pool.producers j).unpushed = 1 ∧ (pool.producers j).checking = 0 := by
    obtain hpc | hpc := hpc <;> rw [hpc] <;> exact ⟨rfl, rfl⟩
  have htesting : (.testing task : ProducerPc τ).unpushed = 1 ∧ (.testing task : ProducerPc τ).checking = 1 :=
    ⟨rfl, rfl⟩
  unfold Drains arrived unpushed bound
  rw [hmax, hqueue, hworkers, hproducers]
  split <;> omega

/-- After `stop` a step does not change whether the pool drains, except that a producer may enter the mutex. -/
theorem step_drains {pool pool' : ThreadPool τ threadNum ι} {l : PoolLabel τ threadNum ι} (hmutex : pool.MutexInv)
    (hstopped : pool.running_ = false) (hstep : pool.step l = some pool') :
    (pool'.Drains ↔ pool.Drains) ∨
      (∃ j wake, l = .producer j wake ∧ (pool.producers j).inside = false) ∧ (pool.Drains → pool'.Drains) ∧
        (pool.bound = 0 → (pool'.Drains ↔ pool.Drains)) := by
  cases step_moves hstep with
  | inline hnone => exact Or.inl Iff.rfl
  | calls hpc hrunning =>
    rw [hstopped] at hrunning
    cases hrunning
  | producerLocks hpc hfree =>
    rename_i j wake task
    refine Or.inr ⟨⟨j, wake, rfl, hmutex.producer_outside (by simp [hfree])⟩, drains_lock hpc rfl⟩
  | producerSleeps hpc hfull =>
    exact Or.inl (drains_move_producer rfl (by rw [hpc]; rfl) fun hroom => (Nat.not_lt.mpr hfull hroom).elim)
  | producerPasses hpc hroom => exact Or.inl (drains_move_producer rfl (by rw [hpc]; rfl) fun _ => by rw [hpc]; rfl)
  | producerWaits hpc => exact Or.inl (drains_move_producer rfl (by rw [hpc]; rfl) fun _ => by rw [hpc]; rfl)
  | pushes hpc => exact Or.inl (drains_push hmutex hpc rfl)
  | producerNotifies hpc hwake =>
    rename_i j wake
    have hpc' : (pool.wakeWorker wake).producers j = .notifying := by rw [wakeWorker_producers, hpc]
    have hmoved : ((pool.wakeWorker wake).setProducer j .returning).Drains ↔ (pool.wakeWorker wake).Drains :=
      drains_move_producer rfl (by rw [hpc']; rfl) fun _ => by rw [hpc']; rfl
    exact Or.inl (hmoved.trans (drains_wakeWorker pool wake))
  | producerReturns hpc => exact Or.inl (drains_move_producer rfl (by rw [hpc]; rfl) fun _ => by rw [hpc]; rfl)
  | workerLoops hpc hrunning =>
    rw [hstopped] at hrunning
    cases hrunning
  | workerLeaves hpc hfalse => exact Or.inl (drains_move_worker rfl (by rw [hpc]; rfl))
  | workerLocks hpc hfree =>
    exact Or.inl (drains_move_worker rfl (by obtain hpc | hpc := hpc <;> rw [hpc] <;> rfl))
  | workerSleeps hpc hempty hrunning => exact Or.inl (drains_move_worker rfl (by rw [hpc]; rfl))
  | workerPasses hpc => exact Or.inl (drains_move_worker rfl (by rw [hpc]; rfl))
  | workerWaits hpc => exact Or.inl (drains_move_worker rfl (by rw [hpc]; rfl))
  | pops hpc hqueue => exact Or.inl (drains_pop hmutex hpc hqueue rfl rfl)
  | findsNone hpc hqueue => exact Or.inl (drains_findNone hmutex hpc hqueue rfl)
  | workerNotifies hpc hwake =>
    rename_i i wake task
    have hpc' : (pool.wakeProducer wake).workers i = .notifying task := by rw [wakeProducer_workers, hpc]
    have hmoved : ((pool.wakeProducer wake).setWorker i (.returning task)).Drains ↔ (pool.wakeProducer wake).Drains :=
      drains_move_worker rfl (by rw [hpc']; rfl)
    exact Or.inl (hmoved.trans (drains_wakeProducer pool wake))
  | returnsNone hpc => exact Or.inl (drains_move_worker rfl (by rw [hpc]; rfl))
  | returnsSome hpc => exact Or.inl (drains_move_worker rfl (by rw [hpc]; rfl))
  | executes hpc => exact Or.inl (drains_move_worker rfl (by rw [hpc]; rfl))
  | stops hpc hrunning => exact Or.inl Iff.rfl
  | stopLocks hpc hfree => exact Or.inl Iff.rfl
  | notifiesAll hpc =>
    exact Or.inl (drains_congr rfl (Finset.sum_congr rfl fun i _ => WorkerPc.bound_wake _) rfl fun _ => rfl)
  | stopReturns hpc => exact Or.inl Iff.rfl
  | joins hpc hleft => exact Or.inl Iff.rfl
  | wakesProducer hpc => exact Or.inl (drains_move_producer rfl (by rw [hpc]; rfl) fun _ => by rw [hpc]; rfl)
  | wakesWorker hpc => exact Or.inl (drains_move_worker rfl (by rw [hpc]; rfl))

/-- `running_` goes from true to false, by `stop` alone. -/
theorem step_running_ {pool pool' : ThreadPool τ threadNum ι} {l : PoolLabel τ threadNum ι}
    (hstep : pool.step l = some pool') : pool'.running_ = pool.running_ ∨ l = .stop := by
  cases step_moves hstep with
  | stops hpc hrunning => exact Or.inr rfl
  | producerNotifies hpc hwake =>
    rename_i j wake
    cases wake <;> exact Or.inl rfl
  | workerNotifies hpc hwake =>
    rename_i i wake task
    cases wake <;> exact Or.inl rfl
  | _ => exact Or.inl rfl

theorem step_stopper_ne_idle {pool pool' : ThreadPool τ threadNum ι} {l : PoolLabel τ threadNum ι}
    (hstep : pool.step l = some pool') (hstop : pool.stopper ≠ .idle) : pool'.stopper ≠ .idle := by
  cases step_moves hstep with
  | stops hpc hrunning => exact (hstop hpc).elim
  | stopLocks hpc hfree => simp
  | notifiesAll hpc => simp
  | stopReturns hpc => simp
  | joins hpc hleft => simp
  | producerNotifies hpc hwake =>
    rename_i j wake
    cases wake <;> exact hstop
  | workerNotifies hpc hwake =>
    rename_i i wake task
    cases wake <;> exact hstop
  | _ => exact hstop

/-- What is known of a run in which `stop` has been called, if at all, in a state that drains. -/
structure StopInv (pool : ThreadPool τ threadNum ι) : Prop where
  wakeup : pool.WakeupInv
  left : ∀ i, (pool.workers i).hasLeft = true → pool.running_ = false
  drains : pool.running_ = false → pool.Drains

omit [DecidableEq ι] in
theorem init_stopInv (maxQueueSize_ : Nat) : (init maxQueueSize_ : ThreadPool τ threadNum ι).StopInv where
  wakeup := init_wakeupInv maxQueueSize_
  left _ h := by cases h
  drains h := by cases h

theorem StopInv.left_step {pool pool' : ThreadPool τ threadNum ι} {l : PoolLabel τ threadNum ι} (hinv : pool.StopInv)
    (hstep : pool.step l = some pool') {i : Fin threadNum} (hleft : (pool'.workers i).hasLeft = true) :
    pool'.running_ = false := by
  have hearlier (h : (pool.workers i).hasLeft = true) : pool'.running_ = false := by
    obtain hsame | rfl := step_running_ hstep
    · exact hsame.trans (hinv.left i h)
    · cases step_moves hstep with
      | stops hpc hrunning => rfl
  obtain hworkers | hworkers | ⟨wake, rfl⟩ := step_worker hstep i
  · exact hearlier (hworkers ▸ hleft)
  · rw [hworkers, WorkerPc.hasLeft_wake] at hleft
    exact hearlier hleft
  · cases step_moves hstep with
    | workerLeaves hpc hstopped => exact hstopped
    | workerNotifies hpc hwake =>
      rw [wakeProducer_setWorker_workers, Function.update_self] at hleft
      cases hleft
    | _ =>
      simp only [setWorker, Function.update_self] at hleft
      cases hleft

theorem StopInv.step {pool pool' : ThreadPool τ threadNum ι} {l : PoolLabel τ threadNum ι} (hinv : pool.StopInv)
    (hstop : l = .stop → pool.Drains) (hstep : pool.step l = some pool') : pool'.StopInv where
  wakeup := hinv.wakeup.step hstep
  left _ hleft := hinv.left_step hstep hleft
  drains hstopped := by
    obtain hsame | rfl := step_running_ hstep
    · rw [hsame] at hstopped
      obtain hiff | ⟨_, hkept, _⟩ := step_drains hinv.wakeup.mutex hstopped hstep
      · exact hiff.mpr (hinv.drains hstopped)
      · exact hkept (hinv.drains hstopped)
    · cases step_moves hstep with
      | stops hpc hrunning => exact hstop rfl

omit [DecidableEq ι] in
/-- A drained pool leaves no producer waiting: those on their way fit into the queue without it. -/
theorem StopInv.not_waiting {pool : ThreadPool τ threadNum ι} (hinv : pool.StopInv) (hpos : 0 < threadNum)
    (hleft : ∀ i, (pool.workers i).hasLeft = true) (j : ι) : pool.producerStand j ≠ .waiting := by
  intro hwaiting
  have hdrains := hinv.drains (hinv.left ⟨0, hpos⟩ (hleft _))
  have hworkers (i : Fin threadNum) : pool.workers i = .left := WorkerPc.hasLeft_iff.mp (hleft i)
  have hbound : pool.bound = 0 := Finset.sum_eq_zero fun i _ => by rw [hworkers i]; rfl
  have howes : ∑ i, (pool.workers i).owes = 0 := Finset.sum_eq_zero fun i _ => by rw [hworkers i]; rfl
  have hcovered := hinv.wakeup.notFull ⟨j, hwaiting⟩
  have hfewer : ∑ k, (pool.producerStand k).coming < pool.unpushed := by
    refine Finset.sum_lt_sum (fun k _ => ProducerPc.coming_le_unpushed _) ⟨j, Finset.mem_univ j, ?_⟩
    cases hpc : pool.producers j with
    | waiting task => simp [producerStand, hpc, ProducerPc.stand, Stand.coming, ProducerPc.unpushed]
    | _ => simp [producerStand, hpc, ProducerPc.stand] at hwaiting
  unfold Drains at hdrains
  omega

/-- `stop` strands no producer if it finds the pool in a state that drains: when all workers have left, no thread
waits in `runTask`. -/
theorem stop_strands_nobody {maxQueueSize_ : Nat} {labels : List (PoolLabel τ threadNum ι)}
    {pool : ThreadPool τ threadNum ι} (hpos : 0 < threadNum)
    (hstop : Run.Along step (fun pool l => l = .stop → pool.Drains) (init maxQueueSize_) labels)
    (hrun : Run.exec step (init maxQueueSize_) labels = some pool)
    (hleft : ∀ i, (pool.workers i).hasLeft = true) (j : ι) : pool.producerStand j ≠ .waiting := by
  have hinv : pool.StopInv :=
    Run.exec_invariant (fun _ _ _ hinv hstop hstep => hinv.step hstop hstep) (init_stopInv maxQueueSize_) hstop hrun
  exact hinv.not_waiting hpos hleft j

/-- The worker has just entered `take` when `stop` comes, and its pop wakes the waiting producer. -/
theorem stop_strands_nobody_after_pop : ∃ (labels : List (PoolLabel Nat 1 (Fin 2))) (pool : ThreadPool Nat 1 (Fin 2)),
    Run.exec step (init 1) labels = some pool ∧ .stop ∈ labels ∧ pool.unpushed = 1 ∧
      pool.producerStand 1 ≠ .waiting := by
  let labels : List (PoolLabel Nat 1 (Fin 2)) :=
    List.flatten [[.runTask 0 (some 7)], List.replicate 5 (.producer 0 none), [.runTask 1 (some 8)],
      List.replicate 3 (.producer 1 none), [.worker 0 none, .stop, .stopper, .stopper, .stopper],
      List.replicate 3 (.worker 0 none), [.worker 0 (some 1)], List.replicate 3 (.worker 0 none)]
  have hstop : Run.Along step (fun pool l => l = .stop → pool.Drains) (init 1) labels := by decide +kernel
  obtain ⟨pool, hrun, hleft, hunpushed⟩ := Run.Reaches.exists
    (show Run.Reaches step (init 1) labels
      (fun pool => (∀ i, (pool.workers i).hasLeft = true) ∧ pool.unpushed = 1) by decide +kernel)
  exact ⟨labels, pool, hrun, by decide, hunpushed, stop_strands_nobody (by decide) hstop hrun hleft 1⟩

/-- The only worker executes a task when `stop` comes, and leaves without another pop: the producer that waits for
room in the queue is never woken. -/
theorem stop_strands_producer : ∃ (labels : List (PoolLabel Nat 1 (Fin 2))) (pool : ThreadPool Nat 1 (Fin 2)),
    Run.exec step (init 1) labels = some pool ∧ (∀ i, (pool.workers i).hasLeft = true) ∧
      pool.producerStand 1 = .waiting := by
  let labels : List (PoolLabel Nat 1 (Fin 2)) :=
    List.flatten [[.runTask 0 (some 7)], List.replicate 5 (.producer 0 none), List.replicate 6 (.worker 0 none),
      [.runTask 0 (some 8)], List.replicate 5 (.producer 0 none), [.runTask 1 (some 9)],
      List.replicate 3 (.producer 1 none), [.stop, .stopper, .stopper, .stopper, .worker 0 none, .worker 0 none]]
  obtain ⟨pool, hrun, hleft, hwaiting⟩ := Run.Reaches.exists
    (show Run.Reaches step (init 1) labels
      (fun pool => (∀ i, (pool.workers i).hasLeft = true) ∧ pool.producerStand 1 = .waiting) by decide +kernel)
  exact ⟨labels, pool, hrun, hleft, hwaiting⟩

end ThreadPool

end mudong.ev
