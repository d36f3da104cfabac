import Mathlib.Data.List.ReduceOption
import Mudong.ThreadPool.Mutex

namespace mudong.ev

/-- The task that a worker has taken and not yet executed. -/
def WorkerPc.inHand {τ : Type} : WorkerPc τ → List τ
  | .notifying task => task.toList
  | .returning task => task.toList
  | .executing task => [task]
  | _ => []

theorem WorkerPc.inHand_wake {τ : Type} (pc : WorkerPc τ) : pc.wake.inHand = pc.inHand := by
  cases pc <;> rfl

namespace ThreadPool

variable {τ : Type} {threadNum : Nat} {ι : Type}

/-- The task that a step pushes. -/
def pushed (pool : ThreadPool τ threadNum ι) : PoolLabel τ threadNum ι → List (Option τ)
  | .producer j _ =>
    match pool.producers j with
    | .pushing task => [task]
    | _ => []
  | _ => []

/-- The task that a step pops, with the worker. -/
def popped (pool : ThreadPool τ threadNum ι) : PoolLabel τ threadNum ι → List (Fin threadNum × Option τ)
  | .worker i _ =>
    match pool.workers i, pool.taskQueue_ with
    | .taking, task :: _ => [(i, task)]
    | _, _ => []
  | _ => []

/-- The task that a step executes, with the worker. -/
def executed (pool : ThreadPool τ threadNum ι) : PoolLabel τ threadNum ι → List (Fin threadNum × τ)
  | .worker i _ =>
    match pool.workers i with
    | .executing task => [(i, task)]
    | _ => []
  | _ => []

/-- The tasks among them that are not empty. -/
def nonEmpty (tasks : List (Fin threadNum × Option τ)) : List (Fin threadNum × τ) :=
  tasks.filterMap fun p => p.2.map (Prod.mk p.1)

theorem map_snd_nonEmpty (tasks : List (Fin threadNum × Option τ)) :
    (nonEmpty tasks).map Prod.snd = (tasks.map Prod.snd).reduceOption := by
  induction tasks with
  | nil => rfl
  | cons p tasks ih =>
    obtain ⟨i, task⟩ := p
    cases task with
    | none => simpa [nonEmpty] using ih
    | some task => simpa [nonEmpty] using ih

omit τ in
/-- Two logs that agree for each worker hold the same tasks. -/
theorem perm_of_filter_eq {τ : Type} {l m : List (Fin threadNum × τ)}
    (h : ∀ i, l.filter (·.1 = i) = m.filter (·.1 = i)) : l.Perm m := by
  classical
  refine List.perm_iff_count.mpr fun p => ?_
  have hl : (l.filter (·.1 = p.1)).count p = l.count p := List.count_filter (by simp)
  have hm : (m.filter (·.1 = p.1)).count p = m.count p := List.count_filter (by simp)
  rw [← hl, ← hm, h p.1]

theorem nonEmpty_map (k : Fin threadNum) (tasks : List (Option τ)) :
    nonEmpty (tasks.map (Prod.mk k)) = tasks.reduceOption.map (Prod.mk k) := by
  induction tasks with
  | nil => rfl
  | cons task tasks ih =>
    cases task with
    | none => simpa [nonEmpty] using ih
    | some task => simpa [nonEmpty] using ih

/-- What is in the hands of a worker, before and after one of the workers moves. -/
theorem inHand_move {pool pool' : ThreadPool τ threadNum ι} {k : Fin threadNum} {pc : WorkerPc τ} {wake : Option ι}
    (taken : List (Option τ)) (done : List τ) (hworkers : pool'.workers = Function.update pool.workers k pc)
    (hpopped : pool.popped (.worker k wake) = taken.map (Prod.mk k))
    (hexecuted : pool.executed (.worker k wake) = done.map (Prod.mk k))
    (hhand : (pool.workers k).inHand ++ taken.reduceOption = done ++ pc.inHand) (i : Fin threadNum) :
    (pool.workers i).inHand.map (Prod.mk i) ++ (nonEmpty (pool.popped (.worker k wake))).filter (·.1 = i) =
      (pool.executed (.worker k wake)).filter (·.1 = i) ++ (pool'.workers i).inHand.map (Prod.mk i) := by
  rw [hpopped, hexecuted, hworkers, nonEmpty_map]
  by_cases hk : i = k
  · subst hk
    have hall (tasks : List τ) : (tasks.map (Prod.mk i)).filter (·.1 = i) = tasks.map (Prod.mk i) := by simp
    rw [hall, hall, Function.update_self, ← List.map_append, ← List.map_append, hhand]
  · have hnone (tasks : List τ) : (tasks.map (Prod.mk k)).filter (·.1 = i) = [] := by simp [Ne.symm hk]
    rw [hnone, hnone, Function.update_of_ne hk, List.append_nil, List.nil_append]

/-- A worker that neither takes nor executes a task keeps what it has in hand. -/
theorem inHand_keep {pool pool' : ThreadPool τ threadNum ι} {k : Fin threadNum} {pc : WorkerPc τ} {wake : Option ι}
    (hworkers : pool'.workers = Function.update pool.workers k pc) (hpopped : pool.popped (.worker k wake) = [])
    (hexecuted : pool.executed (.worker k wake) = []) (hhand : (pool.workers k).inHand = pc.inHand)
    (i : Fin threadNum) :
    (pool.workers i).inHand.map (Prod.mk i) ++ (nonEmpty (pool.popped (.worker k wake))).filter (·.1 = i) =
      (pool.executed (.worker k wake)).filter (·.1 = i) ++ (pool'.workers i).inHand.map (Prod.mk i) :=
  inHand_move [] [] hworkers hpopped hexecuted (by simpa using hhand) i

/-- The other threads leave the hands of the workers as they are. -/
theorem inHand_same {pool pool' : ThreadPool τ threadNum ι} {l : PoolLabel τ threadNum ι} {i : Fin threadNum}
    (hpopped : pool.popped l = []) (hexecuted : pool.executed l = [])
    (hworkers : pool'.workers i = pool.workers i ∨ pool'.workers i = (pool.workers i).wake) :
    (pool.workers i).inHand.map (Prod.mk i) ++ (nonEmpty (pool.popped l)).filter (·.1 = i) =
      (pool.executed l).filter (·.1 = i) ++ (pool'.workers i).inHand.map (Prod.mk i) := by
  have hhand : (pool'.workers i).inHand = (pool.workers i).inHand := by
    obtain hworkers | hworkers := hworkers
    · rw [hworkers]
    · rw [hworkers, WorkerPc.inHand_wake]
  rw [hpopped, hexecuted, hhand]
  simp [nonEmpty]

variable [DecidableEq ι] [Fintype ι]

/-- A step takes what it pops from the front of the queue and puts what it pushes at its back. -/
theorem step_queue {pool pool' : ThreadPool τ threadNum ι} {l : PoolLabel τ threadNum ι}
    (hstep : pool.step l = some pool') :
    pool.taskQueue_ ++ pool.pushed l = (pool.popped l).map Prod.snd ++ pool'.taskQueue_ := by
  cases step_moves hstep with
  | pushes hpc => simp [pushed, popped, hpc]
  | pops hpc hqueue => simp [pushed, popped, hpc, hqueue]
  | findsNone hpc hqueue => simp [pushed, popped, hpc, hqueue]
  | producerLocks hpc hfree => obtain hpc | hpc := hpc <;> simp [pushed, popped, hpc]
  | workerLocks hpc hfree => obtain hpc | hpc := hpc <;> simp [pushed, popped, hpc]
  | calls hpc => simp [pushed, popped]
  | inline => simp [pushed, popped]
  | stops => simp [pushed, popped]
  | stopLocks => simp [pushed, popped]
  | notifiesAll => simp [pushed, popped]
  | stopReturns => simp [pushed, popped]
  | joins => simp [pushed, popped]
  | wakesProducer hpc => simp [pushed, popped]
  | wakesWorker hpc => simp [pushed, popped]
  | _ hpc => simp [pushed, popped, hpc]

/-- A worker executes what it has in hand, and takes nothing before. -/
theorem step_inHand {pool pool' : ThreadPool τ threadNum ι} {l : PoolLabel τ threadNum ι}
    (hstep : pool.step l = some pool') (i : Fin threadNum) :
    (pool.workers i).inHand.map (Prod.mk i) ++ (nonEmpty (pool.popped l)).filter (·.1 = i) =
      (pool.executed l).filter (·.1 = i) ++ (pool'.workers i).inHand.map (Prod.mk i) := by
  cases step_moves hstep with
  | workerLoops hpc hrunning =>
    exact inHand_keep rfl (by simp [popped, hpc]) (by simp [executed, hpc]) (by rw [hpc]; rfl) i
  | workerLeaves hpc hstopped =>
    exact inHand_keep rfl (by simp [popped, hpc]) (by simp [executed, hpc]) (by rw [hpc]; rfl) i
  | workerLocks hpc hfree =>
    obtain hpc | hpc := hpc
    · exact inHand_keep rfl (by simp [popped, hpc]) (by simp [executed, hpc]) (by rw [hpc]; rfl) i
    · exact inHand_keep rfl (by simp [popped, hpc]) (by simp [executed, hpc]) (by rw [hpc]; rfl) i
  | workerSleeps hpc hempty hrunning =>
    exact inHand_keep rfl (by simp [popped, hpc]) (by simp [executed, hpc]) (by rw [hpc]; rfl) i
  | workerPasses hpc =>
    exact inHand_keep rfl (by simp [popped, hpc]) (by simp [executed, hpc]) (by rw [hpc]; rfl) i
  | workerWaits hpc =>
    exact inHand_keep rfl (by simp [popped, hpc]) (by simp [executed, hpc]) (by rw [hpc]; rfl) i
  | pops hpc hqueue =>
    rename_i k wake task rest
    refine inHand_move [task] [] rfl (by simp [popped, hpc, hqueue]) (by simp [executed, hpc]) ?_ i
    cases task <;> simp [hpc, WorkerPc.inHand]
  | findsNone hpc hqueue =>
    exact inHand_keep rfl (by simp [popped, hpc, hqueue]) (by simp [executed, hpc]) (by rw [hpc]; rfl) i
  | workerNotifies hpc hwake =>
    exact inHand_keep (wakeProducer_setWorker_workers ..) (by simp [popped, hpc]) (by simp [executed, hpc])
      (by rw [hpc]; rfl) i
  | returnsNone hpc =>
    exact inHand_keep rfl (by simp [popped, hpc]) (by simp [executed, hpc]) (by rw [hpc]; rfl) i
  | returnsSome hpc =>
    exact inHand_keep rfl (by simp [popped, hpc]) (by simp [executed, hpc]) (by rw [hpc]; rfl) i
  | executes hpc =>
    rename_i k wake task
    refine inHand_move [] [task] rfl (by simp [popped, hpc]) (by simp [executed, hpc]) ?_ i
    simp [hpc, WorkerPc.inHand]
  | _ =>
    refine inHand_same rfl rfl ?_
    obtain hworkers | hworkers | ⟨wake, hl⟩ := step_worker hstep i
    · exact Or.inl hworkers
    · exact Or.inr hworkers
    · cases hl

/-- A worker that has left does nothing any more. -/
theorem step_hasLeft {pool pool' : ThreadPool τ threadNum ι} {l : PoolLabel τ threadNum ι}
    (hstep : pool.step l = some pool') {i : Fin threadNum} (hleft : (pool.workers i).hasLeft = true) :
    (pool'.workers i).hasLeft = true := by
  obtain hworkers | hworkers | ⟨wake, rfl⟩ := step_worker hstep i
  · rw [hworkers, hleft]
  · rw [hworkers, WorkerPc.hasLeft_wake, hleft]
  · simp [step, workerStep, WorkerPc.hasLeft_iff.mp hleft] at hstep

/-- `stop` returns when all workers have left. -/
theorem step_returned {pool pool' : ThreadPool τ threadNum ι} {l : PoolLabel τ threadNum ι}
    (hstep : pool.step l = some pool')
    (hreturned : pool.stopper = .returned → ∀ i, (pool.workers i).hasLeft = true) :
    pool'.stopper = .returned → ∀ i, (pool'.workers i).hasLeft = true := by
  intro hpc' i
  cases step_moves hstep with
  | joins hpc hleft => exact hleft i
  | stops hpc hrunning => cases hpc'
  | stopLocks hpc hfree => cases hpc'
  | notifiesAll hpc => cases hpc'
  | stopReturns hpc => cases hpc'
  | producerNotifies hpc hwake =>
    rename_i j wake
    refine step_hasLeft hstep (hreturned ?_ i)
    cases wake <;> exact hpc'
  | workerNotifies hpc hwake =>
    rename_i k wake task
    refine step_hasLeft hstep (hreturned ?_ i)
    cases wake <;> exact hpc'
  | _ => exact step_hasLeft hstep (hreturned hpc' i)

theorem step_maxQueueSize_ {pool pool' : ThreadPool τ threadNum ι} {l : PoolLabel τ threadNum ι}
    (hstep : pool.step l = some pool') : pool'.maxQueueSize_ = pool.maxQueueSize_ := by
  cases step_moves hstep with
  | producerNotifies hpc hwake => exact wakeWorker_maxQueueSize_ ..
  | workerNotifies hpc hwake => exact wakeProducer_maxQueueSize_ ..
  | _ => rfl

/-- What a worker has popped it has executed, in this order, but for the task in its hands. -/
theorem exec_inHand {maxQueueSize_ : Nat} {labels : List (PoolLabel τ threadNum ι)} {pool : ThreadPool τ threadNum ι}
    (hrun : Run.exec step (init maxQueueSize_) labels = some pool) (i : Fin threadNum) :
    (nonEmpty (Run.trace step popped (init maxQueueSize_) labels)).filter (·.1 = i) =
      (Run.trace step executed (init maxQueueSize_) labels).filter (·.1 = i) ++
        (pool.workers i).inHand.map (Prod.mk i) := by
  have hconserved := Run.trace_conserved (fun pool => (pool.workers i).inHand.map (Prod.mk i))
    (fun _ _ _ hstep => step_inHand hstep i) hrun
  have hpopped := Run.trace_hom (h := fun tasks => (nonEmpty tasks).filter (·.1 = i)) rfl
    (fun a b => by simp [nonEmpty]) step popped (init maxQueueSize_ : ThreadPool τ threadNum ι) labels
  have hexecuted := Run.trace_hom (h := fun tasks => tasks.filter (·.1 = i)) rfl (fun a b => List.filter_append a b)
    step executed (init maxQueueSize_ : ThreadPool τ threadNum ι) labels
  rw [hpopped, hexecuted]
  exact hconserved

/-- The pool neither loses, duplicates nor reorders tasks. The queue is bounded and holds what has been pushed and
not popped; each worker executes, once, the tasks it has popped; and when `stop` has returned, the tasks that were
pushed and not executed are those left in the queue. -/
theorem tasks_conserved {maxQueueSize_ : Nat} {labels : List (PoolLabel τ threadNum ι)}
    {pool : ThreadPool τ threadNum ι} (hrun : Run.exec step (init maxQueueSize_) labels = some pool) :
    pool.taskQueue_.length ≤ maxQueueSize_ ∧
      Run.trace step pushed (init maxQueueSize_) labels =
        (Run.trace step popped (init maxQueueSize_) labels).map Prod.snd ++ pool.taskQueue_ ∧
      (∀ i, (nonEmpty (Run.trace step popped (init maxQueueSize_) labels)).filter (·.1 = i) =
        (Run.trace step executed (init maxQueueSize_) labels).filter (·.1 = i) ++
          (pool.workers i).inHand.map (Prod.mk i)) ∧
      (pool.stopper = .returned →
        (Run.trace step pushed (init maxQueueSize_) labels).reduceOption.Perm
          ((Run.trace step executed (init maxQueueSize_) labels).map Prod.snd ++ pool.taskQueue_.reduceOption)) := by
  have hmax : pool.maxQueueSize_ = maxQueueSize_ :=
    Run.exec_preserves (I := fun pool => pool.maxQueueSize_ = maxQueueSize_)
      (fun _ _ _ hmax hstep => (step_maxQueueSize_ hstep).trans hmax) rfl hrun
  have hqueue : Run.trace step pushed (init maxQueueSize_) labels =
      (Run.trace step popped (init maxQueueSize_) labels).map Prod.snd ++ pool.taskQueue_ := by
    have hconserved := Run.trace_conserved taskQueue_ (fun _ _ _ hstep => step_queue hstep) hrun
    have hpopped := Run.trace_hom (h := List.map Prod.snd) rfl (fun _ _ => List.map_append)
      step popped (init maxQueueSize_ : ThreadPool τ threadNum ι) labels
    rw [hpopped]
    exact hconserved
  refine ⟨hmax ▸ (exec_mutexInv hrun).bound, hqueue, exec_inHand hrun, fun hreturned => ?_⟩
  have hleft : ∀ i, (pool.workers i).hasLeft = true :=
    Run.exec_preserves (I := fun pool => pool.stopper = .returned → ∀ i, (pool.workers i).hasLeft = true)
      (fun _ _ _ hreturned hstep => step_returned hstep hreturned) (fun hpc => by cases hpc) hrun hreturned
  have hexecuted : (nonEmpty (Run.trace step popped (init maxQueueSize_) labels)).Perm
      (Run.trace step executed (init maxQueueSize_) labels) := by
    refine perm_of_filter_eq fun i => ?_
    have hempty : (pool.workers i).inHand = [] := by
      rw [WorkerPc.hasLeft_iff.mp (hleft i)]
      rfl
    rw [exec_inHand hrun i, hempty, List.map_nil, List.append_nil]
  rw [hqueue, List.reduceOption_append, ← map_snd_nonEmpty]
  exact (hexecuted.map Prod.snd).append_right _

/-- `stop` finds the worker at its first task, and the second one is left behind. -/
theorem tasks_conserved_left_behind : ∃ (labels : List (PoolLabel Nat 1 (Fin 1))) (pool : ThreadPool Nat 1 (Fin 1)),
    Run.exec step (init 2) labels = some pool ∧ pool.stopper = .returned ∧ pool.taskQueue_ = [some 8] ∧
      (Run.trace step pushed (init 2) labels).reduceOption.Perm
        ((Run.trace step executed (init 2) labels).map Prod.snd ++ [8]) := by
  let labels : List (PoolLabel Nat 1 (Fin 1)) :=
    List.flatten [[.runTask 0 (some 7)], List.replicate 5 (.producer 0 none), [.runTask 0 (some 8)],
      List.replicate 5 (.producer 0 none), List.replicate 6 (.worker 0 none),
      [.stop, .stopper, .stopper, .stopper, .worker 0 none, .worker 0 none, .stopper]]
  obtain ⟨pool, hrun, hreturned, hqueue⟩ := Run.Reaches.exists
    (show Run.Reaches step (init 2) labels (fun pool => pool.stopper = .returned ∧ pool.taskQueue_ = [some 8]) by
      decide +kernel)
  obtain ⟨_, _, _, hleft⟩ := tasks_conserved hrun
  refine ⟨labels, pool, hrun, hreturned, hqueue, ?_⟩
  have hperm := hleft hreturned
  rw [hqueue] at hperm
  exact hperm

end ThreadPool

end mudong.ev
