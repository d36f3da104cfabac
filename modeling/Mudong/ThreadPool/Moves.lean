import Mudong.ThreadPool

namespace mudong.ev

namespace WorkerPc

variable {τ : Type}

theorem hasLeft_iff {pc : WorkerPc τ} : pc.hasLeft = true ↔ pc = .left := by
  cases pc <;> simp [hasLeft]

@[simp] theorem hasLeft_wake (pc : WorkerPc τ) : pc.wake.hasLeft = pc.hasLeft := by
  cases pc <;> rfl

end WorkerPc

namespace ThreadPool

variable {τ : Type} {threadNum : Nat} {ι : Type}

@[simp] theorem setWorker_maxQueueSize_ (pool : ThreadPool τ threadNum ι) (i : Fin threadNum) (pc : WorkerPc τ) :
    (pool.setWorker i pc).maxQueueSize_ = pool.maxQueueSize_ := rfl

@[simp] theorem setWorker_taskQueue_ (pool : ThreadPool τ threadNum ι) (i : Fin threadNum) (pc : WorkerPc τ) :
    (pool.setWorker i pc).taskQueue_ = pool.taskQueue_ := rfl

@[simp] theorem wakeWorker_maxQueueSize_ (pool : ThreadPool τ threadNum ι) (wake : Option (Fin threadNum)) :
    (pool.wakeWorker wake).maxQueueSize_ = pool.maxQueueSize_ := by
  cases wake <;> rfl

@[simp] theorem wakeWorker_taskQueue_ (pool : ThreadPool τ threadNum ι) (wake : Option (Fin threadNum)) :
    (pool.wakeWorker wake).taskQueue_ = pool.taskQueue_ := by
  cases wake <;> rfl

@[simp] theorem wakeWorker_producers (pool : ThreadPool τ threadNum ι) (wake : Option (Fin threadNum)) :
    (pool.wakeWorker wake).producers = pool.producers := by
  cases wake <;> rfl

variable [DecidableEq ι]

@[simp] theorem setProducer_maxQueueSize_ (pool : ThreadPool τ threadNum ι) (j : ι) (pc : ProducerPc τ) :
    (pool.setProducer j pc).maxQueueSize_ = pool.maxQueueSize_ := rfl

@[simp] theorem setProducer_taskQueue_ (pool : ThreadPool τ threadNum ι) (j : ι) (pc : ProducerPc τ) :
    (pool.setProducer j pc).taskQueue_ = pool.taskQueue_ := rfl

@[simp] theorem wakeProducer_maxQueueSize_ (pool : ThreadPool τ threadNum ι) (wake : Option ι) :
    (pool.wakeProducer wake).maxQueueSize_ = pool.maxQueueSize_ := by
  cases wake <;> rfl

@[simp] theorem wakeProducer_taskQueue_ (pool : ThreadPool τ threadNum ι) (wake : Option ι) :
    (pool.wakeProducer wake).taskQueue_ = pool.taskQueue_ := by
  cases wake <;> rfl

@[simp] theorem wakeProducer_workers (pool : ThreadPool τ threadNum ι) (wake : Option ι) :
    (pool.wakeProducer wake).workers = pool.workers := by
  cases wake <;> rfl

theorem wakeProducer_setWorker_workers (pool : ThreadPool τ threadNum ι) (wake : Option ι) (i : Fin threadNum)
    (pc : WorkerPc τ) : ((pool.wakeProducer wake).setWorker i pc).workers = Function.update pool.workers i pc := by
  cases wake <;> rfl

/-- Everything a step of a thread can be, with what the thread has found. -/
inductive Moves (pool : ThreadPool τ threadNum ι) : PoolLabel τ threadNum ι → ThreadPool τ threadNum ι → Prop where
  | inline {j : ι} {task : Option τ} (hnone : threadNum = 0) : Moves pool (.runTask j task) pool
  | calls {j : ι} {task : Option τ} (hpc : pool.producers j = .idle) (hrunning : pool.running_ = true) :
      Moves pool (.runTask j task) (pool.setProducer j (.locking task))
  | producerLocks {j : ι} {wake : Option (Fin threadNum)} {task : Option τ}
      (hpc : pool.producers j = .locking task ∨ pool.producers j = .woken task) (hfree : pool.mutex_ = none) :
      Moves pool (.producer j wake) { pool.setProducer j (.testing task) with mutex_ := some (.producer j) }
  | producerSleeps {j : ι} {wake : Option (Fin threadNum)} {task : Option τ}
      (hpc : pool.producers j = .testing task) (hfull : pool.maxQueueSize_ ≤ pool.taskQueue_.length) :
      Moves pool (.producer j wake) (pool.setProducer j (.sleeping task))
  | producerPasses {j : ι} {wake : Option (Fin threadNum)} {task : Option τ}
      (hpc : pool.producers j = .testing task) (hroom : pool.taskQueue_.length < pool.maxQueueSize_) :
      Moves pool (.producer j wake) (pool.setProducer j (.pushing task))
  | producerWaits {j : ι} {wake : Option (Fin threadNum)} {task : Option τ}
      (hpc : pool.producers j = .sleeping task) :
      Moves pool (.producer j wake) { pool.setProducer j (.waiting task) with mutex_ := none }
  | pushes {j : ι} {wake : Option (Fin threadNum)} {task : Option τ} (hpc : pool.producers j = .pushing task) :
      Moves pool (.producer j wake) { pool.setProducer j .notifying with taskQueue_ := pool.taskQueue_ ++ [task] }
  | producerNotifies {j : ι} {wake : Option (Fin threadNum)} (hpc : pool.producers j = .notifying)
      (hwake : Monitor.Notifies pool.workerStand wake) :
      Moves pool (.producer j wake) ((pool.wakeWorker wake).setProducer j .returning)
  | producerReturns {j : ι} {wake : Option (Fin threadNum)} (hpc : pool.producers j = .returning) :
      Moves pool (.producer j wake) { pool.setProducer j .idle with mutex_ := none }
  | workerLoops {i : Fin threadNum} {wake : Option ι} (hpc : pool.workers i = .loop)
      (hrunning : pool.running_ = true) : Moves pool (.worker i wake) (pool.setWorker i .locking)
  | workerLeaves {i : Fin threadNum} {wake : Option ι} (hpc : pool.workers i = .loop)
      (hstopped : pool.running_ = false) : Moves pool (.worker i wake) (pool.setWorker i .left)
  | workerLocks {i : Fin threadNum} {wake : Option ι} (hpc : pool.workers i = .locking ∨ pool.workers i = .woken)
      (hfree : pool.mutex_ = none) :
      Moves pool (.worker i wake) { pool.setWorker i .testing with mutex_ := some (.worker i) }
  | workerSleeps {i : Fin threadNum} {wake : Option ι} (hpc : pool.workers i = .testing)
      (hempty : pool.taskQueue_ = []) (hrunning : pool.running_ = true) :
      Moves pool (.worker i wake) (pool.setWorker i .sleeping)
  | workerPasses {i : Fin threadNum} {wake : Option ι} (hpc : pool.workers i = .testing) :
      Moves pool (.worker i wake) (pool.setWorker i .taking)
  | workerWaits {i : Fin threadNum} {wake : Option ι} (hpc : pool.workers i = .sleeping) :
      Moves pool (.worker i wake) { pool.setWorker i .waiting with mutex_ := none }
  | pops {i : Fin threadNum} {wake : Option ι} {task : Option τ} {rest : List (Option τ)}
      (hpc : pool.workers i = .taking) (hqueue : pool.taskQueue_ = task :: rest) :
      Moves pool (.worker i wake) { pool.setWorker i (.notifying task) with taskQueue_ := rest }
  | findsNone {i : Fin threadNum} {wake : Option ι} (hpc : pool.workers i = .taking)
      (hqueue : pool.taskQueue_ = []) : Moves pool (.worker i wake) (pool.setWorker i (.returning none))
  | workerNotifies {i : Fin threadNum} {wake : Option ι} {task : Option τ} (hpc : pool.workers i = .notifying task)
      (hwake : Monitor.Notifies pool.producerStand wake) :
      Moves pool (.worker i wake) ((pool.wakeProducer wake).setWorker i (.returning task))
  | returnsNone {i : Fin threadNum} {wake : Option ι} (hpc : pool.workers i = .returning none) :
      Moves pool (.worker i wake) { pool.setWorker i .loop with mutex_ := none }
  | returnsSome {i : Fin threadNum} {wake : Option ι} {task : τ} (hpc : pool.workers i = .returning (some task)) :
      Moves pool (.worker i wake) { pool.setWorker i (.executing task) with mutex_ := none }
  | executes {i : Fin threadNum} {wake : Option ι} {task : τ} (hpc : pool.workers i = .executing task) :
      Moves pool (.worker i wake) (pool.setWorker i .loop)
  | stops (hpc : pool.stopper = .idle) (hrunning : pool.running_ = true) :
      Moves pool .stop { pool with running_ := false, stopper := .locking }
  | stopLocks (hpc : pool.stopper = .locking) (hfree : pool.mutex_ = none) :
      Moves pool .stopper { pool with stopper := .notifying, mutex_ := some .stopper }
  | notifiesAll (hpc : pool.stopper = .notifying) :
      Moves pool .stopper { pool with stopper := .returning, workers := fun i => (pool.workers i).wake }
  | stopReturns (hpc : pool.stopper = .returning) :
      Moves pool .stopper { pool with stopper := .joining, mutex_ := none }
  | joins (hpc : pool.stopper = .joining) (hleft : ∀ i, (pool.workers i).hasLeft = true) :
      Moves pool .stopper { pool with stopper := .returned }
  | wakesProducer {j : ι} {task : Option τ} (hpc : pool.producers j = .waiting task) :
      Moves pool (.spuriousProducer j) (pool.setProducer j (.woken task))
  | wakesWorker {i : Fin threadNum} (hpc : pool.workers i = .waiting) :
      Moves pool (.spuriousWorker i) (pool.setWorker i .woken)

theorem workerStep_moves [Fintype ι] {pool pool' : ThreadPool τ threadNum ι} {i : Fin threadNum} {wake : Option ι}
    (hstep : pool.workerStep i wake = some pool') : pool.Moves (.worker i wake) pool' := by
  unfold workerStep at hstep
  split at hstep <;> rename_i hpc
  · cases hstep
    split
    · rename_i hrunning
      exact .workerLoops hpc hrunning
    · rename_i hstopped
      exact .workerLeaves hpc (Bool.not_eq_true _ ▸ hstopped)
  · obtain ⟨hfree, ⟨⟩⟩ := Option.ite_none_right_eq_some.mp hstep
    exact .workerLocks (Or.inl hpc) hfree
  · cases hstep
    split
    · rename_i hsleep
      exact .workerSleeps hpc hsleep.1 hsleep.2
    · exact .workerPasses hpc
  · cases hstep
    exact .workerWaits hpc
  · cases hstep
  · obtain ⟨hfree, ⟨⟩⟩ := Option.ite_none_right_eq_some.mp hstep
    exact .workerLocks (Or.inr hpc) hfree
  · split at hstep <;> rename_i hqueue
    · cases hstep
      exact .findsNone hpc hqueue
    · cases hstep
      exact .pops hpc hqueue
  · obtain ⟨hwake, ⟨⟩⟩ := Option.ite_none_right_eq_some.mp hstep
    exact .workerNotifies hpc hwake
  · cases hstep
    exact .returnsNone hpc
  · cases hstep
    exact .returnsSome hpc
  · cases hstep
    exact .executes hpc
  · cases hstep

theorem producerStep_moves {pool pool' : ThreadPool τ threadNum ι} {j : ι} {wake : Option (Fin threadNum)}
    (hstep : pool.producerStep j wake = some pool') : pool.Moves (.producer j wake) pool' := by
  unfold producerStep at hstep
  split at hstep <;> rename_i hpc
  · cases hstep
  · obtain ⟨hfree, ⟨⟩⟩ := Option.ite_none_right_eq_some.mp hstep
    exact .producerLocks (Or.inl hpc) hfree
  · cases hstep
    split
    · exact .producerSleeps hpc ‹_›
    · exact .producerPasses hpc (by omega)
  · cases hstep
    exact .producerWaits hpc
  · cases hstep
  · obtain ⟨hfree, ⟨⟩⟩ := Option.ite_none_right_eq_some.mp hstep
    exact .producerLocks (Or.inr hpc) hfree
  · cases hstep
    exact .pushes hpc
  · obtain ⟨hwake, ⟨⟩⟩ := Option.ite_none_right_eq_some.mp hstep
    exact .producerNotifies hpc hwake
  · cases hstep
    exact .producerReturns hpc

theorem stopStep_moves {pool pool' : ThreadPool τ threadNum ι} (hstep : pool.stopStep = some pool') :
    pool.Moves .stopper pool' := by
  unfold stopStep at hstep
  split at hstep <;> rename_i hpc
  · cases hstep
  · obtain ⟨hfree, ⟨⟩⟩ := Option.ite_none_right_eq_some.mp hstep
    exact .stopLocks hpc hfree
  · cases hstep
    exact .notifiesAll hpc
  · cases hstep
    exact .stopReturns hpc
  · obtain ⟨hleft, ⟨⟩⟩ := Option.ite_none_right_eq_some.mp hstep
    exact .joins hpc hleft
  · cases hstep

/-- Every step is one of the moves. -/
theorem step_moves [Fintype ι] {pool pool' : ThreadPool τ threadNum ι} {l : PoolLabel τ threadNum ι}
    (hstep : pool.step l = some pool') : pool.Moves l pool' := by
  cases l with
  | runTask j task =>
    simp only [step] at hstep
    split at hstep
    · rename_i hrunning hpc
      cases hstep
      split
      · exact .inline ‹_›
      · exact .calls hpc hrunning
    · cases hstep
  | producer j wake => exact producerStep_moves hstep
  | worker i wake => exact workerStep_moves hstep
  | stop =>
    simp only [step] at hstep
    split at hstep
    · rename_i hrunning hpc
      cases hstep
      exact .stops hpc hrunning
    · cases hstep
  | stopper => exact stopStep_moves hstep
  | spuriousProducer j =>
    obtain ⟨hstand, ⟨⟩⟩ := Option.ite_none_right_eq_some.mp hstep
    cases hpc : pool.producers j with
    | waiting task =>
      rw [wakeProducer, hpc]
      exact .wakesProducer hpc
    | _ => simp [producerStand, hpc, ProducerPc.stand] at hstand
  | spuriousWorker i =>
    obtain ⟨hstand, ⟨⟩⟩ := Option.ite_none_right_eq_some.mp hstep
    cases hpc : pool.workers i with
    | waiting =>
      rw [wakeWorker, hpc]
      exact .wakesWorker hpc
    | _ => simp [workerStand, hpc, WorkerPc.stand] at hstand

/-- A worker moves by its own steps, except that it is woken. -/
theorem step_worker [Fintype ι] {pool pool' : ThreadPool τ threadNum ι} {l : PoolLabel τ threadNum ι}
    (hstep : pool.step l = some pool') (i : Fin threadNum) :
    pool'.workers i = pool.workers i ∨ pool'.workers i = (pool.workers i).wake ∨ ∃ wake, l = .worker i wake := by
  have hmove {k : Fin threadNum} {wake : Option ι} (pc : WorkerPc τ) :
      Function.update pool.workers k pc i = pool.workers i ∨
        Function.update pool.workers k pc i = (pool.workers i).wake ∨
          ∃ wake' : Option ι, (.worker k wake : PoolLabel τ threadNum ι) = .worker i wake' := by
    by_cases hk : i = k
    · exact Or.inr (Or.inr ⟨wake, by rw [hk]⟩)
    · exact Or.inl (Function.update_of_ne hk ..)
  have hwoken (k : Fin threadNum) : Function.update pool.workers k (pool.workers k).wake i = pool.workers i ∨
      Function.update pool.workers k (pool.workers k).wake i = (pool.workers i).wake := by
    by_cases hk : i = k
    · rw [hk]
      exact Or.inr (Function.update_self ..)
    · exact Or.inl (Function.update_of_ne hk ..)
  cases step_moves hstep with
  | inline hnone => exact Or.inl rfl
  | calls hpc hrunning => exact Or.inl rfl
  | producerLocks hpc hfree => exact Or.inl rfl
  | producerSleeps hpc hfull => exact Or.inl rfl
  | producerPasses hpc hroom => exact Or.inl rfl
  | producerWaits hpc => exact Or.inl rfl
  | pushes hpc => exact Or.inl rfl
  | producerNotifies hpc hwake =>
    rename_i j wake
    cases wake with
    | none => exact Or.inl rfl
    | some k => exact (hwoken k).imp_right Or.inl
  | producerReturns hpc => exact Or.inl rfl
  | workerNotifies hpc hwake =>
    rw [wakeProducer_setWorker_workers]
    exact hmove _
  | stops hpc hrunning => exact Or.inl rfl
  | stopLocks hpc hfree => exact Or.inl rfl
  | notifiesAll hpc => exact Or.inr (Or.inl rfl)
  | stopReturns hpc => exact Or.inl rfl
  | joins hpc hleft => exact Or.inl rfl
  | wakesProducer hpc => exact Or.inl rfl
  | wakesWorker hpc =>
    rename_i k
    have hwoken := hwoken k
    rw [hpc] at hwoken
    exact hwoken.imp_right Or.inl
  | _ => exact hmove _

end ThreadPool

end mudong.ev
