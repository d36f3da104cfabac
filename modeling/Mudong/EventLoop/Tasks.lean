import Mudong.EventLoop

namespace mudong.ev

/-- What `doPendingTasks` has swapped out and not executed yet. -/
def LoopPc.batch {τ : Type} : LoopPc τ → List τ
  | .swapped tasks => tasks
  | .running tasks => tasks
  | _ => []

namespace LoopWorld

variable {τ : Type}

/-- The task that a step pushes, in the owner thread or in another one. -/
def pushes (_ : LoopWorld τ) : LoopLabel τ → List τ
  | .queueInLoop task => [task]
  | .push _ task => [task]
  | _ => []

/-- The task that a step executes. -/
def executes (w : LoopWorld τ) : LoopLabel τ → List τ
  | .runTask =>
    match w.pc with
    | .running (task :: _) => [task]
    | _ => []
  | _ => []

/-- A step other than the swap leaves the batch to its execution, and the queue takes what is pushed. -/
theorem step_between_swaps {w w' : LoopWorld τ} {l : LoopLabel τ} (hstep : w.step l = some w') (hswap : l ≠ .swap) :
    w.pc.batch = w.executes l ++ w'.pc.batch ∧ w'.pendingTasks_ = w.pendingTasks_ ++ w.pushes l := by
  cases l with
  | swap => exact (hswap rfl).elim
  | publish | enter | reset | poll woken | handleRead =>
    simp only [step, Option.ite_none_right_eq_some, Option.some.injEq] at hstep
    obtain ⟨hpc, rfl⟩ := hstep
    refine ⟨?_, (List.append_nil _).symm⟩
    cases hw : w.pc <;> simp_all [LoopPc.batch, executes]
  | test =>
    simp only [step, Option.ite_none_right_eq_some, Option.some.injEq] at hstep
    obtain ⟨hpc, rfl⟩ := hstep
    refine ⟨?_, (List.append_nil _).symm⟩
    have hidle : w.pc.batch = [] := by
      cases hw : w.pc <;> simp_all [LoopPc.batch]
    rw [hidle]
    cases hquit : w.quit_ <;> rfl
  | setDoing =>
    simp only [step] at hstep
    split at hstep
    · rename_i tasks hpc
      cases hstep
      simp [hpc, LoopPc.batch, executes, pushes]
    · cases hstep
  | runTask =>
    simp only [step] at hstep
    split at hstep
    · rename_i task rest hpc
      cases hstep
      simp [hpc, LoopPc.batch, executes, pushes]
    · cases hstep
  | clearDoing =>
    simp only [step, Option.ite_none_right_eq_some, Option.some.injEq] at hstep
    obtain ⟨hpc, rfl⟩ := hstep
    refine ⟨?_, (List.append_nil _).symm⟩
    split at hpc
    · simp_all [LoopPc.batch, executes]
    · cases hpc
  | queueInLoop task =>
    simp only [step, Option.ite_none_right_eq_some, Option.some.injEq] at hstep
    obtain ⟨_, rfl⟩ := hstep
    exact ⟨rfl, EventLoop.queueInLoop_pendingTasks_ _ _⟩
  | quitInLoop =>
    simp only [step, Option.ite_none_right_eq_some, Option.some.injEq] at hstep
    obtain ⟨_, rfl⟩ := hstep
    exact ⟨rfl, (List.append_nil _).symm⟩
  | push thread task =>
    simp only [step, Option.ite_none_right_eq_some, Option.some.injEq] at hstep
    obtain ⟨_, rfl⟩ := hstep
    exact ⟨rfl, rfl⟩
  | quit thread =>
    simp only [step, Option.ite_none_right_eq_some, Option.some.injEq] at hstep
    obtain ⟨_, rfl⟩ := hstep
    exact ⟨rfl, (List.append_nil _).symm⟩
  | wakeup thread =>
    simp only [step] at hstep
    split at hstep
    · cases hstep
    · cases hstep
      exact ⟨rfl, (List.append_nil _).symm⟩
    · cases hstep
      exact ⟨rfl, (List.append_nil _).symm⟩

/-- No step loses, repeats or reorders a task. -/
theorem step_conserves {w w' : LoopWorld τ} {l : LoopLabel τ} (hstep : w.step l = some w') :
    (w.pc.batch ++ w.pendingTasks_) ++ w.pushes l = w.executes l ++ (w'.pc.batch ++ w'.pendingTasks_) := by
  by_cases hswap : l = .swap
  · subst hswap
    simp only [step, Option.ite_none_right_eq_some, Option.some.injEq] at hstep
    obtain ⟨hpc, rfl⟩ := hstep
    have hidle : w.pc.batch = [] := by
      cases hw : w.pc <;> simp_all [LoopPc.batch]
    rw [hidle]
    simp only [LoopPc.batch, pushes, executes, List.nil_append]
  · obtain ⟨hbatch, hpending⟩ := step_between_swaps hstep hswap
    rw [hbatch, hpending]
    simp only [List.append_assoc]

/-- Until the next swap the owner thread executes the batch in its order and nothing else, and everything
pushed meanwhile waits in the queue. -/
theorem exec_between_swaps {w w' : LoopWorld τ} {labels : List (LoopLabel τ)}
    (hrun : Run.exec step w labels = some w') (hswap : .swap ∉ labels) :
    w.pc.batch = Run.trace step executes w labels ++ w'.pc.batch ∧
      w'.pendingTasks_ = w.pendingTasks_ ++ Run.trace step pushes w labels := by
  induction labels generalizing w with
  | nil =>
    cases hrun
    simp [Run.trace]
  | cons l labels ih =>
    obtain ⟨v, hv, hrun⟩ := Run.exec_cons_eq_some.mp hrun
    have hne : l ≠ .swap := fun h => hswap (h ▸ List.mem_cons_self)
    obtain ⟨hbatch, hpending⟩ := step_between_swaps hv hne
    obtain ⟨hbatch', hpending'⟩ := ih hrun (fun h => hswap (List.mem_cons_of_mem _ h))
    rw [Run.trace_cons hv, Run.trace_cons hv, hbatch, hpending', hpending, hbatch']
    simp only [List.append_assoc, and_self]

/-- Every pushed task is executed once, in the order of the pushes, or is still on its way: in the batch or in
the queue. A task pushed while a batch is under way waits for a later one. -/
theorem pending_tasks_run_once_in_order {labels : List (LoopLabel τ)} {w : LoopWorld τ}
    (hrun : Run.exec step init labels = some w) :
    Run.trace step pushes init labels = Run.trace step executes init labels ++ (w.pc.batch ++ w.pendingTasks_) ∧
      ∀ tasks later w', w.pc = .swapped tasks → Run.exec step w later = some w' → .swap ∉ later →
        tasks = Run.trace step executes w later ++ w'.pc.batch ∧
          w'.pendingTasks_ = w.pendingTasks_ ++ Run.trace step pushes w later := by
  constructor
  · exact Run.trace_conserved (fun w => w.pc.batch ++ w.pendingTasks_)
      (fun _ _ _ hstep => step_conserves hstep) hrun
  · intro tasks later w' hpc hlater hswap
    have hbetween := exec_between_swaps hlater hswap
    rw [hpc] at hbetween
    exact hbetween

/-- A task that queues another one and is followed by a producer, in the middle of its batch. -/
theorem pending_tasks_run_once_in_order_nested : ∃ w w' : LoopWorld Nat,
    Run.exec step init [.publish, .enter, .reset, .test, .push 0 1, .wakeup 0, .poll true, .handleRead, .swap] =
      some w ∧
    Run.exec step w [.setDoing, .runTask, .queueInLoop 2, .push 1 3] = some w' ∧ w.pc = .swapped [1] ∧
      [1] = Run.trace step executes w [.setDoing, .runTask, .queueInLoop 2, .push 1 3] ++ w'.pc.batch ∧
      w'.pendingTasks_ = w.pendingTasks_ ++ [2, 3] := by
  obtain ⟨w, hrun, hpc, hpushes, hlater⟩ := Run.Reaches.exists
    (show Run.Reaches step (init : LoopWorld Nat)
      [.publish, .enter, .reset, .test, .push 0 1, .wakeup 0, .poll true, .handleRead, .swap]
      (fun w => w.pc = .swapped [1] ∧
        Run.trace step pushes w [.setDoing, .runTask, .queueInLoop 2, .push 1 3] = [2, 3] ∧
        Run.Reaches step w [.setDoing, .runTask, .queueInLoop 2, .push 1 3] fun _ => True) by decide)
  obtain ⟨w', hlater, _⟩ := hlater.exists
  obtain ⟨_, hbatch⟩ := pending_tasks_run_once_in_order hrun
  obtain ⟨hexecuted, hpending⟩ := hbatch [1] _ w' hpc hlater (by decide)
  rw [hpushes] at hpending
  exact ⟨w, w', hrun, hlater, hpc, hexecuted, hpending⟩

end LoopWorld

end mudong.ev
