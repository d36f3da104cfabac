import Mudong.EventLoop

namespace mudong.ev.LoopWorld

variable {τ : Type}

/-- The owner thread has not yet passed the `quit_ = false` of `loop()`. -/
def BeforeReset (w : LoopWorld τ) : Bool :=
  match w.pc with
  | .constructed => true
  | .published => true
  | .entered => true
  | _ => false

/-- What one step does, by the thread and the place that takes it. -/
inductive Moves (w : LoopWorld τ) : LoopLabel τ → LoopWorld τ → Prop where
  | publish (hpc : w.pc = .constructed) : Moves w .publish { w with pc := .published }
  | enter (hpc : w.pc = .published) : Moves w .enter { w with pc := .entered }
  | reset (hpc : w.pc = .entered) : Moves w .reset { w with pc := .test, quit_ := false }
  | leave (hpc : w.pc = .test) (hquit : w.quit_ = true) : Moves w .test { w with pc := .left }
  | stay (hpc : w.pc = .test) (hquit : w.quit_ = false) : Moves w .test { w with pc := .polling }
  | poll {woken : Bool} (hpc : w.pc = .polling) (hwoken : woken = true → 0 < w.wakeupfd_) :
    Moves w (.poll woken) { w with pc := .handling woken, polls := w.polls + 1 }
  | handleRead (hpc : w.pc = .handling true) :
    Moves w .handleRead { w with toEventLoop := w.handleRead, pc := .handling false }
  | swap (hpc : w.pc = .handling false) :
    Moves w .swap { w with pc := .swapped w.pendingTasks_, pendingTasks_ := [] }
  | setDoing {tasks : List τ} (hpc : w.pc = .swapped tasks) :
    Moves w .setDoing { w with pc := .running tasks, doingPendingTasks_ := true }
  | runTask {task : τ} {rest : List τ} (hpc : w.pc = .running (task :: rest)) :
    Moves w .runTask { w with pc := .running rest }
  | clearDoing (hpc : w.pc = .running []) : Moves w .clearDoing { w with pc := .test, doingPendingTasks_ := false }
  | queueInLoop {task : τ} (huser : w.InUserCode = true) :
    Moves w (.queueInLoop task) { w with toEventLoop := w.toEventLoop.queueInLoop task }
  | quitInLoop (huser : w.InUserCode = true) : Moves w .quitInLoop { w with quit_ := true }
  | push {thread : Nat} {task : τ} (hpc : w.pc ≠ .constructed) (hcall : w.calls thread = .idle) :
    Moves w (.push thread task)
      { w with toEventLoop := w.toEventLoop.push task, calls := Function.update w.calls thread .pushed }
  | quit {thread : Nat} (hpc : w.pc ≠ .constructed) (hcall : w.calls thread = .idle) :
    Moves w (.quit thread) { w with quit_ := true, calls := Function.update w.calls thread .quitStored }
  | wakeupPushed {thread : Nat} (hcall : w.calls thread = .pushed) :
    Moves w (.wakeup thread)
      { w with toEventLoop := w.toEventLoop.wakeup, calls := Function.update w.calls thread .idle }
  | wakeupQuit {thread : Nat} (hcall : w.calls thread = .quitStored) :
    Moves w (.wakeup thread)
      { w with toEventLoop := w.toEventLoop.wakeup, calls := Function.update w.calls thread .idle,
               quits := w.quits + 1 }

theorem step_moves {w w' : LoopWorld τ} {l : LoopLabel τ} (hstep : w.step l = some w') : Moves w l w' := by
  cases l with
  | publish | enter | reset | handleRead | swap | clearDoing =>
    simp only [step, Option.ite_none_right_eq_some, Option.some.injEq] at hstep
    obtain ⟨hpc, rfl⟩ := hstep
    constructor
    split at hpc
    · assumption
    · cases hpc
  | test =>
    simp only [step, Option.ite_none_right_eq_some, Option.some.injEq] at hstep
    obtain ⟨hpc, rfl⟩ := hstep
    have htest : w.pc = .test := by
      split at hpc
      · assumption
      · cases hpc
    cases hquit : w.quit_ with
    | true => exact .leave htest hquit
    | false => exact .stay htest hquit
  | poll woken =>
    simp only [step, Option.ite_none_right_eq_some, Option.some.injEq, Bool.and_eq_true, Bool.or_eq_true,
      Bool.not_eq_true', decide_eq_true_eq] at hstep
    obtain ⟨⟨hpc, hwoken⟩, rfl⟩ := hstep
    refine .poll ?_ ?_
    · split at hpc
      · assumption
      · cases hpc
    · rintro rfl
      simpa using hwoken
  | setDoing =>
    simp only [step] at hstep
    split at hstep
    · cases hstep
      exact .setDoing (by assumption)
    · cases hstep
  | runTask =>
    simp only [step] at hstep
    split at hstep
    · cases hstep
      exact .runTask (by assumption)
    · cases hstep
  | queueInLoop task =>
    simp only [step, Option.ite_none_right_eq_some, Option.some.injEq] at hstep
    obtain ⟨huser, rfl⟩ := hstep
    exact .queueInLoop huser
  | quitInLoop =>
    simp only [step, Option.ite_none_right_eq_some, Option.some.injEq] at hstep
    obtain ⟨huser, rfl⟩ := hstep
    exact .quitInLoop huser
  | push thread task =>
    simp only [step, Option.ite_none_right_eq_some, Option.some.injEq, Bool.and_eq_true, decide_eq_true_eq] at hstep
    obtain ⟨⟨hpc, hcall⟩, rfl⟩ := hstep
    exact .push (by rintro h; simp [h] at hpc) hcall
  | quit thread =>
    simp only [step, Option.ite_none_right_eq_some, Option.some.injEq, Bool.and_eq_true, decide_eq_true_eq] at hstep
    obtain ⟨⟨hpc, hcall⟩, rfl⟩ := hstep
    exact .quit (by rintro h; simp [h] at hpc) hcall
  | wakeup thread =>
    cases hcall : w.calls thread <;> simp only [step, hcall, reduceCtorEq, Option.some.injEq] at hstep
    · subst hstep
      exact .wakeupPushed hcall
    · subst hstep
      exact .wakeupQuit hcall

end mudong.ev.LoopWorld
