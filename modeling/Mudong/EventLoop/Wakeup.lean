import Mudong.EventLoop

namespace mudong.ev.LoopWorld

variable {τ : Type}

/-- Some thread will see to it that a waiting loop notices its pending tasks: the event descriptor is
readable, or a producer has pushed its task and not yet written to the descriptor. -/
def Covered (w : LoopWorld τ) : Prop :=
  w.pendingTasks_ ≠ [] → 0 < w.wakeupfd_ ∨ ∃ thread, w.calls thread = .pushed

/-- While handlers run the loop is on its way to the swap and needs no wakeup. Everywhere else the pending
tasks are covered, and the tasks themselves run under the flag that makes their own pushes write to the
descriptor. -/
structure WakeupInv (w : LoopWorld τ) : Prop where
  covered : (∀ woken, w.pc ≠ .handling woken) → w.Covered
  doing : ∀ tasks, w.pc = .running tasks → w.doingPendingTasks_ = true

/-- The owner thread queues tasks only from its handlers and its tasks. -/
def OwnerQueuesInside (w : LoopWorld τ) (l : LoopLabel τ) : Prop :=
  ∀ task, l = .queueInLoop task → (w.pc matches .handling _) ∨ (w.pc matches .running _)

instance decidableOwnerQueuesInside (w : LoopWorld τ) : ∀ l, Decidable (OwnerQueuesInside w l)
  | .queueInLoop task =>
    decidable_of_iff ((w.pc matches .handling _) ∨ (w.pc matches .running _))
      ⟨fun h _ _ => h, fun h => h task rfl⟩
  | .publish | .enter | .reset | .test | .poll _ | .handleRead | .swap | .setDoing | .runTask | .clearDoing
  | .quitInLoop | .push _ _ | .quit _ | .wakeup _ => isTrue (fun _ h => nomatch h)

theorem Covered.of_empty {w : LoopWorld τ} (h : w.pendingTasks_ = []) : w.Covered := fun hne => (hne h).elim

/-- A producer that has not written yet keeps the tasks covered whatever another thread does to its own
call. -/
theorem Covered.update_call {w : LoopWorld τ} (h : w.Covered) {thread : Nat} {call : LoopCall}
    (hidle : w.calls thread ≠ .pushed) {quit_ : Bool} :
    Covered { w with quit_ := quit_, calls := Function.update w.calls thread call } := by
  intro hne
  obtain hpos | ⟨other, hother⟩ := h hne
  · exact Or.inl hpos
  · refine Or.inr ⟨other, ?_⟩
    have hdiff : other ≠ thread := by
      intro heq
      exact hidle (heq ▸ hother)
    simpa only [Function.update_of_ne hdiff] using hother

theorem WakeupInv.step {w w' : LoopWorld τ} {l : LoopLabel τ} (hinv : w.WakeupInv)
    (hinside : OwnerQueuesInside w l) (hstep : w.step l = some w') : w'.WakeupInv := by
  obtain ⟨hcovered, hdoing⟩ := hinv
  cases l with
  | publish | enter | reset =>
    simp only [LoopWorld.step, Option.ite_none_right_eq_some, Option.some.injEq] at hstep
    obtain ⟨hpc, rfl⟩ := hstep
    refine ⟨fun _ => hcovered ?_, ?_⟩
    · intro woken hhandling
      simp [hhandling] at hpc
    · intro tasks hrunning
      simp at hrunning
  | test =>
    simp only [LoopWorld.step, Option.ite_none_right_eq_some, Option.some.injEq] at hstep
    obtain ⟨hpc, rfl⟩ := hstep
    refine ⟨fun _ => hcovered ?_, ?_⟩
    · intro woken hhandling
      simp [hhandling] at hpc
    · intro tasks hrunning
      dsimp only at hrunning
      split at hrunning <;> cases hrunning
  | poll woken =>
    simp only [LoopWorld.step, Option.ite_none_right_eq_some, Option.some.injEq] at hstep
    obtain ⟨_, rfl⟩ := hstep
    exact ⟨fun h => (h woken rfl).elim, fun tasks hrunning => by simp at hrunning⟩
  | handleRead =>
    simp only [LoopWorld.step, Option.ite_none_right_eq_some, Option.some.injEq] at hstep
    obtain ⟨_, rfl⟩ := hstep
    exact ⟨fun h => (h false rfl).elim, fun tasks hrunning => by simp at hrunning⟩
  | swap =>
    simp only [LoopWorld.step, Option.ite_none_right_eq_some, Option.some.injEq] at hstep
    obtain ⟨_, rfl⟩ := hstep
    exact ⟨fun _ => Covered.of_empty rfl, fun tasks hrunning => by simp at hrunning⟩
  | setDoing =>
    cases hpc : w.pc <;> simp only [LoopWorld.step, hpc, reduceCtorEq, Option.some.injEq] at hstep
    subst hstep
    exact ⟨fun _ => hcovered (by simp [hpc]), fun _ _ => rfl⟩
  | runTask =>
    simp only [LoopWorld.step] at hstep
    split at hstep
    · rename_i head rest hpc
      cases hstep
      exact ⟨fun _ => hcovered (by simp [hpc]), fun _ _ => hdoing _ hpc⟩
    · cases hstep
  | clearDoing =>
    simp only [LoopWorld.step, Option.ite_none_right_eq_some, Option.some.injEq] at hstep
    obtain ⟨hpc, rfl⟩ := hstep
    refine ⟨fun _ => hcovered ?_, ?_⟩
    · intro woken hhandling
      simp [hhandling] at hpc
    · intro tasks hrunning
      simp at hrunning
  | queueInLoop task =>
    simp only [LoopWorld.step, Option.ite_none_right_eq_some, Option.some.injEq] at hstep
    obtain ⟨_, rfl⟩ := hstep
    refine ⟨fun hnot _ => Or.inl ?_, ?_⟩
    · have hrunning : ∃ tasks, w.pc = .running tasks := by
        obtain hhandling | hrunning := hinside task rfl
        · cases hpc : w.pc with
          | handling woken => exact (hnot woken hpc).elim
          | _ => simp [hpc] at hhandling
        · cases hpc : w.pc with
          | running tasks => exact ⟨tasks, rfl⟩
          | _ => simp [hpc] at hrunning
      obtain ⟨tasks, hpc⟩ := hrunning
      exact EventLoop.queueInLoop_wakeupfd_pos (hdoing tasks hpc) task
    · intro tasks hpc
      simpa using hdoing tasks hpc
  | quitInLoop =>
    simp only [LoopWorld.step, Option.ite_none_right_eq_some, Option.some.injEq] at hstep
    obtain ⟨_, rfl⟩ := hstep
    exact ⟨hcovered, hdoing⟩
  | push thread task =>
    simp only [LoopWorld.step, Option.ite_none_right_eq_some, Option.some.injEq] at hstep
    obtain ⟨_, rfl⟩ := hstep
    exact ⟨fun _ _ => Or.inr ⟨thread, Function.update_self _ _ _⟩, hdoing⟩
  | quit thread =>
    simp only [LoopWorld.step, Option.ite_none_right_eq_some, Option.some.injEq, Bool.and_eq_true,
      decide_eq_true_eq] at hstep
    obtain ⟨⟨_, hidle⟩, rfl⟩ := hstep
    exact ⟨fun h => (hcovered h).update_call (by simp [hidle]), hdoing⟩
  | wakeup thread =>
    cases hcall : w.calls thread <;> simp only [LoopWorld.step, hcall, reduceCtorEq, Option.some.injEq] at hstep
    · subst hstep
      exact ⟨fun _ _ => Or.inl (Nat.succ_pos _), hdoing⟩
    · subst hstep
      exact ⟨fun _ _ => Or.inl (Nat.succ_pos _), hdoing⟩

theorem init_wakeupInv : (init : LoopWorld τ).WakeupInv :=
  ⟨fun _ => Covered.of_empty rfl, fun tasks h => by simp [init] at h⟩

/-- No wakeup is lost in a running loop. Whenever the owner thread is about to wait or waits in
`epoll_wait` and tasks are pending, the event descriptor is readable or another thread stands between its
push and its write. -/
theorem no_lost_wakeup {w : LoopWorld τ} {labels : List (LoopLabel τ)}
    (hinside : Run.Along step OwnerQueuesInside init labels) (hrun : Run.exec step init labels = some w)
    (hwaits : w.pc = .test ∨ w.pc = .polling) (hpending : w.pendingTasks_ ≠ []) :
    0 < w.wakeupfd_ ∨ ∃ thread, w.calls thread = .pushed := by
  have hinv : w.WakeupInv :=
    Run.exec_invariant (fun _ _ _ hinv hinside hstep => hinv.step hinside hstep) init_wakeupInv hinside hrun
  apply hinv.covered _ hpending
  intro woken hpc
  rw [hpc] at hwaits
  simp at hwaits

/-- A task pushed while the loop is on its way back to `epoll_wait`, with the write still to come. -/
theorem no_lost_wakeup_after_push : ∃ w : LoopWorld Nat,
    Run.exec step init [.publish, .enter, .reset, .test, .poll false, .queueInLoop 1, .swap, .setDoing, .runTask,
      .clearDoing, .push 0 2, .test] = some w ∧ w.pc = .polling ∧ w.pendingTasks_ = [2] ∧
      (0 < w.wakeupfd_ ∨ ∃ thread, w.calls thread = .pushed) := by
  apply Run.Reaches.exists_of (p := fun w => w.pc = .polling ∧ w.pendingTasks_ = [2])
  · decide
  · rintro w hrun ⟨hpc, hpending⟩
    exact ⟨hpc, hpending, no_lost_wakeup (by decide) hrun (Or.inr hpc) (by simp [hpending])⟩

end mudong.ev.LoopWorld
