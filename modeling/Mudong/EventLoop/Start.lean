import Mudong.EventLoop.Quit
import Mudong.EventLoop.Wakeup

namespace mudong.ev.LoopWorld

variable {τ : Type}

/-- A returned `quit()` is seen by the evaluation of `while (!quit_)` that comes next. -/
def QuitVisible (w : LoopWorld τ) : Prop := w.pc = .test → 0 < w.quits → w.quit_ = true

/-- The first `epoll_wait` does not block over pending tasks: the event descriptor is readable, or a thread that
has pushed its task is about to write to it. -/
def FirstPollAwake (w : LoopWorld τ) : Prop := w.pc = .polling → w.polls = 0 → w.Covered

/-- The owner thread queues a task before `loop()` only while the event descriptor is readable, or another thread
is between its push and its write. -/
def QueuesCovered (w : LoopWorld τ) (l : LoopLabel τ) : Prop :=
  (l matches .queueInLoop _) → w.BeforeReset = true → 0 < w.wakeupfd_ ∨ ∃ thread, w.calls thread = .pushed

/-- No `quit()` stores its flag before `loop()` has reset it, and what the owner thread queues before `loop()` does
not rest on its own wakeup. -/
def RequestsTimely (w : LoopWorld τ) (l : LoopLabel τ) : Prop := QuitTimely w l ∧ QueuesCovered w l

/-- Until the first `epoll_wait` returns the pending tasks are covered, and the owner thread has not got past it. -/
structure StartInv (w : LoopWorld τ) : Prop where
  covered : w.polls = 0 → w.Covered
  polled : w.polls = 0 → w.BeforeReset = true ∨ w.pc = .test ∨ w.pc = .polling ∨ w.pc = .left

theorem init_startInv : (init : LoopWorld τ).StartInv :=
  ⟨fun _ => Covered.of_empty rfl, fun _ => Or.inl rfl⟩

/-- A step of the owner thread on its way to the first `epoll_wait`. -/
theorem StartInv.move {w : LoopWorld τ} (hinv : w.StartInv) {pc : LoopPc τ} {quit_ : Bool}
    (hpolled : BeforeReset { w with pc } = true ∨ pc = .test ∨ pc = .polling ∨ pc = .left) :
    StartInv { w with pc, quit_ } :=
  ⟨hinv.covered, fun _ => hpolled⟩

/-- Only after the first return of `epoll_wait` does the owner thread run handlers and tasks. -/
theorem StartInv.polls_ne_zero {w : LoopWorld τ} (hinv : w.StartInv) (hpast : w.BeforeReset = false)
    (htest : w.pc ≠ .test) (hpolling : w.pc ≠ .polling) (hleft : w.pc ≠ .left) : w.polls ≠ 0 := by
  intro h0
  obtain h | h | h | h := hinv.polled h0
  · simp [hpast] at h
  · exact htest h
  · exact hpolling h
  · exact hleft h

theorem StartInv.of_polls {w : LoopWorld τ} (h : w.polls ≠ 0) : w.StartInv :=
  ⟨fun h0 => (h h0).elim, fun h0 => (h h0).elim⟩

theorem StartInv.step {w w' : LoopWorld τ} {l : LoopLabel τ} (hinv : w.StartInv) (hqueues : QueuesCovered w l)
    (hstep : w.step l = some w') : w'.StartInv := by
  cases step_moves hstep with
  | publish hpc => exact hinv.move (Or.inl rfl)
  | enter hpc => exact hinv.move (Or.inl rfl)
  | reset hpc => exact hinv.move (Or.inr (Or.inl rfl))
  | leave hpc hquit => exact hinv.move (Or.inr (Or.inr (Or.inr rfl)))
  | stay hpc hquit => exact hinv.move (Or.inr (Or.inr (Or.inl rfl)))
  | poll hpc hwoken => exact .of_polls (Nat.succ_ne_zero _)
  | handleRead hpc | swap hpc | setDoing hpc | runTask hpc | clearDoing hpc =>
    have hpolls : w.polls ≠ 0 := by apply hinv.polls_ne_zero <;> simp [BeforeReset, hpc]
    exact .of_polls hpolls
  | queueInLoop huser =>
    refine ⟨fun h0 _ => ?_, hinv.polled⟩
    -- before the first return of `epoll_wait` user code runs only before `loop()`
    have hbefore : w.BeforeReset = true := by
      obtain h | h | h | h := hinv.polled h0
      · exact h
      all_goals simp [InUserCode, h] at huser
    obtain hpos | hpushed := hqueues rfl hbefore
    · exact Or.inl (Nat.lt_of_lt_of_le hpos (EventLoop.wakeupfd_le_queueInLoop _ _))
    · exact Or.inr hpushed
  | quitInLoop huser => exact ⟨hinv.covered, hinv.polled⟩
  | push hpc hcall => exact ⟨fun _ _ => Or.inr ⟨_, Function.update_self _ _ _⟩, hinv.polled⟩
  | quit hpc hcall => exact ⟨fun h0 => (hinv.covered h0).update_call (by simp [hcall]), hinv.polled⟩
  | wakeupPushed hcall => exact ⟨fun _ _ => Or.inl (Nat.succ_pos _), hinv.polled⟩
  | wakeupQuit hcall => exact ⟨fun _ _ => Or.inl (Nat.succ_pos _), hinv.polled⟩

/-- What the start of a loop guarantees when its requests are timely, whatever other threads queue meanwhile: a
returned `quit()` is seen by every later test, and the first `epoll_wait` does not block over queued tasks. -/
theorem requests_kept_when_timely {w : LoopWorld τ} {labels : List (LoopLabel τ)}
    (htimely : Run.Along step RequestsTimely init labels) (hrun : Run.exec step init labels = some w) :
    w.QuitVisible ∧ w.FirstPollAwake := by
  have hquit : w.QuitInv := run_quitInv (htimely.mono fun _ _ h => h.1) hrun
  have hstart : w.StartInv :=
    Run.exec_invariant (fun _ _ _ hinv hl hstep => hinv.step hl.2 hstep) init_startInv htimely hrun
  exact ⟨fun _ hquits => (hquit.kept (Or.inl hquits)).2, fun _ h0 => hstart.covered h0⟩

/-- Another thread pushes in the window, the owner thread queues before that thread has written and once it has.
Then the loop waits over three tasks, or a `quit()` comes before its first test. -/
theorem requests_kept_when_timely_over_tasks :
    (∃ w : LoopWorld Nat, Run.exec step init [.publish, .push 0 1, .queueInLoop 2, .wakeup 0, .queueInLoop 3,
      .enter, .reset, .test] = some w ∧ w.pc = .polling ∧ w.polls = 0 ∧ w.pendingTasks_ = [1, 2, 3] ∧
      w.QuitVisible ∧ w.FirstPollAwake) ∧
    ∃ w : LoopWorld Nat, Run.exec step init [.publish, .push 0 1, .queueInLoop 2, .wakeup 0, .enter, .reset,
      .quit 1, .wakeup 1] = some w ∧ w.pc = .test ∧ 0 < w.quits ∧ w.QuitVisible ∧ w.FirstPollAwake := by
  have hpushed : ∃ thread : Nat, Function.update (fun _ => LoopCall.idle) 0 .pushed thread = .pushed := ⟨0, rfl⟩
  constructor
  · apply Run.Reaches.exists_of (p := fun w => w.pc = .polling ∧ w.polls = 0 ∧ w.pendingTasks_ = [1, 2, 3])
    · decide
    · rintro w hrun ⟨hpc, hpolls, hpending⟩
      refine ⟨hpc, hpolls, hpending, requests_kept_when_timely ?_ hrun⟩
      simp [Run.Along, step, RequestsTimely, QuitTimely, QueuesCovered, BeforeReset, InUserCode, init, hpushed,
        EventLoop.init, EventLoop.push, EventLoop.queueInLoop, EventLoop.wakeup]
  · apply Run.Reaches.exists_of (p := fun w => w.pc = .test ∧ 0 < w.quits)
    · decide
    · rintro w hrun ⟨hpc, hquits⟩
      refine ⟨hpc, hquits, requests_kept_when_timely ?_ hrun⟩
      simp [Run.Along, step, RequestsTimely, QuitTimely, QueuesCovered, BeforeReset, InUserCode, init, hpushed,
        EventLoop.init, EventLoop.push, EventLoop.queueInLoop, EventLoop.wakeup]

/-- A `quit()` that returns before `loop()` begins is forgotten by its reset, and a task that the owner
thread queues before `loop()` meets a first `epoll_wait` nobody will end. -/
theorem requests_before_loop_lost :
    (∃ w : LoopWorld Nat, Run.exec step init [.publish, .quit 0, .wakeup 0, .enter, .reset] = some w ∧
      ¬w.QuitVisible) ∧
    ∃ w : LoopWorld Nat, Run.exec step init [.queueInLoop 7, .publish, .enter, .reset, .test] = some w ∧
      w.calls = (fun _ => .idle) ∧ ¬w.FirstPollAwake := by
  constructor
  · obtain ⟨w, hrun, hpc, hquits, hquit⟩ := Run.Reaches.exists
      (show Run.Reaches step (init : LoopWorld Nat) [.publish, .quit 0, .wakeup 0, .enter, .reset]
        (fun w => w.pc = .test ∧ 0 < w.quits ∧ w.quit_ = false) by decide)
    refine ⟨w, hrun, fun hvisible => ?_⟩
    simp [hvisible hpc hquits] at hquit
  · refine ⟨_, rfl, rfl, fun hawake => ?_⟩
    obtain hpos | ⟨thread, hpushed⟩ := hawake rfl rfl (List.cons_ne_nil _ _)
    · exact Nat.lt_irrefl 0 hpos
    · cases hpushed

end mudong.ev.LoopWorld
