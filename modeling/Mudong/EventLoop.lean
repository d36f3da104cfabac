import Mathlib.Logic.Function.Basic
import Mudong.Lib.Run

namespace mudong.ev

/-- The members of the loop that its task queue and its wakeups go through. `wakeupfd_` stands for the
counter of the event descriptor: a write adds to it, a read resets it, and it is readable while positive. -/
structure EventLoop (τ : Type) where
  quit_ : Bool
  doingPendingTasks_ : Bool
  pendingTasks_ : List τ
  wakeupfd_ : Nat
  deriving Repr

namespace EventLoop

variable {τ : Type}

def init : EventLoop τ :=
  { quit_ := false, doingPendingTasks_ := false, pendingTasks_ := [], wakeupfd_ := 0 }

def wakeup (l : EventLoop τ) : EventLoop τ := { l with wakeupfd_ := l.wakeupfd_ + 1 }

/-- The part of `queueInLoop` under the mutex. -/
def push (l : EventLoop τ) (task : τ) : EventLoop τ := { l with pendingTasks_ := l.pendingTasks_ ++ [task] }

/-- `queueInLoop` in the loop thread, where nothing runs between the push and the test of the flag. -/
def queueInLoop (l : EventLoop τ) (task : τ) : EventLoop τ :=
  if l.doingPendingTasks_ then (l.push task).wakeup else l.push task

/-- The callback of the wakeup channel. -/
def handleRead (l : EventLoop τ) : EventLoop τ := { l with wakeupfd_ := 0 }

@[simp] theorem queueInLoop_pendingTasks_ (l : EventLoop τ) (task : τ) :
    (l.queueInLoop task).pendingTasks_ = l.pendingTasks_ ++ [task] := by
  unfold queueInLoop
  split <;> rfl

@[simp] theorem queueInLoop_doingPendingTasks_ (l : EventLoop τ) (task : τ) :
    (l.queueInLoop task).doingPendingTasks_ = l.doingPendingTasks_ := by
  unfold queueInLoop
  split <;> rfl

@[simp] theorem queueInLoop_quit_ (l : EventLoop τ) (task : τ) : (l.queueInLoop task).quit_ = l.quit_ := by
  unfold queueInLoop
  split <;> rfl

theorem wakeupfd_le_queueInLoop (l : EventLoop τ) (task : τ) : l.wakeupfd_ ≤ (l.queueInLoop task).wakeupfd_ := by
  unfold queueInLoop
  split
  · exact Nat.le_succ _
  · exact Nat.le_refl _

theorem queueInLoop_wakeupfd_pos {l : EventLoop τ} (h : l.doingPendingTasks_ = true) (task : τ) :
    0 < (l.queueInLoop task).wakeupfd_ := by
  rw [queueInLoop, if_pos h]
  exact Nat.succ_pos _

end EventLoop

/-- Where the owner thread stands: before and inside one call of `loop()`. -/
inductive LoopPc (τ : Type) where
  | constructed
  | published
  | entered
  | test
  | polling
  | handling (woken : Bool)
  | swapped (tasks : List τ)
  | running (tasks : List τ)
  | left
  deriving DecidableEq, Repr

/-- Where another thread stands inside its call of `queueInLoop` or `quit`. -/
inductive LoopCall where
  | idle
  | pushed
  | quitStored
  deriving DecidableEq, Repr

/-- A loop with its owner and any number of other threads. `polls` counts the returns of `epoll_wait` in
this `loop()` call, and `quits` the returned `quit()` calls of other threads. -/
structure LoopWorld (τ : Type) extends EventLoop τ where
  pc : LoopPc τ
  polls : Nat
  calls : Nat → LoopCall
  quits : Nat

inductive LoopLabel (τ : Type) where
  | publish
  | enter
  | reset
  | test
  | poll (woken : Bool)
  | handleRead
  | swap
  | setDoing
  | runTask
  | clearDoing
  | queueInLoop (task : τ)
  | quitInLoop
  | push (thread : Nat) (task : τ)
  | quit (thread : Nat)
  | wakeup (thread : Nat)
  deriving DecidableEq, Repr

namespace LoopWorld

variable {τ : Type}

def init : LoopWorld τ := { EventLoop.init with pc := .constructed, polls := 0, calls := fun _ => .idle, quits := 0 }

/-- The owner thread runs code of its user: before `loop()`, in a handler or in a task. -/
def InUserCode (w : LoopWorld τ) : Bool :=
  match w.pc with
  | .constructed => true
  | .published => true
  | .handling _ => true
  | .running _ => true
  | _ => false

/-- One step of the owner thread or of another thread. The pointer to the loop is handed out by `publish`,
so no other thread acts before it. -/
def step (w : LoopWorld τ) : LoopLabel τ → Option (LoopWorld τ)
  | .publish => if w.pc matches .constructed then some { w with pc := .published } else none
  | .enter => if w.pc matches .published then some { w with pc := .entered } else none
  | .reset => if w.pc matches .entered then some { w with pc := .test, quit_ := false } else none
  | .test =>
    if w.pc matches .test then some { w with pc := if w.quit_ then .left else .polling } else none
  | .poll woken =>
    if w.pc matches .polling && (!woken || 0 < w.wakeupfd_) then
      some { w with pc := .handling woken, polls := w.polls + 1 }
    else none
  | .handleRead =>
    if w.pc matches .handling true then some { w with toEventLoop := w.handleRead, pc := .handling false }
    else none
  | .swap =>
    if w.pc matches .handling false then some { w with pc := .swapped w.pendingTasks_, pendingTasks_ := [] }
    else none
  | .setDoing =>
    match w.pc with
    | .swapped tasks => some { w with pc := .running tasks, doingPendingTasks_ := true }
    | _ => none
  | .runTask =>
    match w.pc with
    | .running (_ :: rest) => some { w with pc := .running rest }
    | _ => none
  | .clearDoing =>
    if w.pc matches .running [] then some { w with pc := .test, doingPendingTasks_ := false } else none
  | .queueInLoop task =>
    if w.InUserCode then some { w with toEventLoop := w.toEventLoop.queueInLoop task } else none
  | .quitInLoop => if w.InUserCode then some { w with quit_ := true } else none
  | .push thread task =>
    if !(w.pc matches .constructed) && w.calls thread = .idle then
      some { w with toEventLoop := w.toEventLoop.push task, calls := Function.update w.calls thread .pushed }
    else none
  | .quit thread =>
    if !(w.pc matches .constructed) && w.calls thread = .idle then
      some { w with quit_ := true, calls := Function.update w.calls thread .quitStored }
    else none
  | .wakeup thread =>
    match w.calls thread with
    | .idle => none
    | .pushed => some { w with toEventLoop := w.toEventLoop.wakeup, calls := Function.update w.calls thread .idle }
    | .quitStored =>
      some { w with toEventLoop := w.toEventLoop.wakeup, calls := Function.update w.calls thread .idle,
                    quits := w.quits + 1 }

end LoopWorld

end mudong.ev
