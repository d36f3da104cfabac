import Mudong.CountDownLatch
import Mudong.EventLoop.Quit

namespace mudong.ev

/-- Where the owner of the object stands, in `startLoop` or in the destructor. -/
inductive OwnerPc where
  | constructed
  | starting
  | asserting
  | started
  | destroying
  | quitting
  | waking
  | joining
  | destroyed
  deriving DecidableEq, Repr

/-- `startLoop` has returned the pointer to the loop. -/
def OwnerPc.handedOut : OwnerPc → Bool
  | .constructed => false
  | .starting => false
  | .asserting => false
  | _ => true

/-- Where the new thread stands in `runInThread`. -/
inductive RunnerPc where
  | unborn
  | constructing
  | publishing
  | counting
  | looping
  | clearing
  | destructing
  | finished
  deriving DecidableEq, Repr

/-- The `EventLoop` on the stack of the thread exists. -/
def RunnerPc.alive : RunnerPc → Bool
  | .unborn => false
  | .constructing => false
  | .finished => false
  | _ => true

/-- The failed assertions of `startLoop` and `quit`, and a `quit` of a loop that is gone. -/
inductive ThreadFault where
  | startLoopStarted
  | startLoopEarly
  | startLoopNull
  | quit
  | dangling
  deriving DecidableEq, Repr

/-- The object with its owner, its thread and the loop of that thread. `loop_` tells whether the pointer is set. -/
structure EventLoopThread (τ : Type) where
  started_ : Bool
  loop_ : Bool
  latch_ : CountDownLatch Unit Unit
  owner : OwnerPc
  runner : RunnerPc
  loop : LoopWorld τ
  faults : List ThreadFault

/-- One step of the owner, of the thread in `runInThread`, of one of them in the latch, or of the loop and those
who have its pointer. -/
inductive ThreadLabel (τ : Type) where
  | startLoop
  | destroy
  | owner
  | runner
  | latch (l : LatchLabel Unit Unit)
  | loop (l : LoopLabel τ)
  deriving DecidableEq, Repr

namespace EventLoopThread

variable {τ : Type}

def init : EventLoopThread τ :=
  { started_ := false
    loop_ := false
    latch_ := CountDownLatch.init 1
    owner := .constructed
    runner := .unborn
    loop := LoopWorld.init
    faults := [] }

def check (w : EventLoopThread τ) (fault : ThreadFault) (p : Prop) [Decidable p] : EventLoopThread τ :=
  { w with faults := if p then w.faults else w.faults ++ [fault] }

/-- `startLoop` up to its `latch_.wait()`. -/
def startLoop (w : EventLoopThread τ) : Option (EventLoopThread τ) :=
  let w := w.check .startLoopStarted (w.started_ = false)
  let w := w.check .startLoopEarly (w.loop_ = false)
  (w.latch_.step (.wait ())).map fun latch_ =>
    { w with started_ := true, latch_, owner := .starting, runner := .constructing }

/-- A step of the destructor in `loop_->quit()`. -/
def quitStep (w : EventLoopThread τ) (l : LoopLabel τ) (next : OwnerPc) : Option (EventLoopThread τ) :=
  if w.runner.alive then (w.loop.step l).map fun loop => { w with loop, owner := next }
  else some { w with owner := next, faults := w.faults ++ [.dangling] }

/-- The next step of the owner. The waits for the latch and for the thread are over when it goes on. -/
def ownerStep (w : EventLoopThread τ) : Option (EventLoopThread τ) :=
  match w.owner with
  | .starting => if w.latch_.waiters () = .returned then some { w with owner := .asserting } else none
  | .asserting => some { w.check .startLoopNull (w.loop_ = true) with owner := .started }
  | .destroying => some { w with owner := if w.loop_ then .quitting else .joining }
  | .quitting => (w.check .quit (w.loop.quit_ = false)).quitStep (.quit 0) .waking
  | .waking => w.quitStep (.wakeup 0) .joining
  | .joining => if w.runner = .finished then some { w with owner := .destroyed } else none
  | _ => none

/-- The next step of the thread in `runInThread`, outside of the latch and of `loop()`. -/
def runnerStep (w : EventLoopThread τ) : Option (EventLoopThread τ) :=
  match w.runner with
  | .constructing => some { w with runner := .publishing }
  | .publishing =>
    (w.loop.step .publish).bind fun loop => (w.latch_.step (.count ())).map fun latch_ =>
      { w with loop_ := true, loop, latch_, runner := .counting }
  | .counting =>
    if w.latch_.counters () = .idle then (w.loop.step .enter).map fun loop => { w with loop, runner := .looping }
    else none
  | .looping => if w.loop.pc matches .left then some { w with runner := .clearing } else none
  | .clearing => some { w with loop_ := false, runner := .destructing }
  | .destructing => some { w with runner := .finished }
  | _ => none

/-- Who may take a step of the loop: its thread while it is in `loop()`, and user code, in that thread or in others,
once `startLoop` has given out the pointer. The calls of thread `0` are those of the destructor. -/
def mayStep (w : EventLoopThread τ) : LoopLabel τ → Bool
  | .publish => false
  | .enter => false
  | .queueInLoop _ => w.runner = .looping && w.owner.handedOut
  | .quitInLoop => w.runner = .looping && w.owner.handedOut
  | .push thread _ => w.runner.alive && w.owner.handedOut && 0 < thread
  | .quit thread => w.runner.alive && w.owner.handedOut && 0 < thread
  | .wakeup thread => w.runner.alive && w.owner.handedOut && 0 < thread
  | _ => w.runner = .looping

def step (w : EventLoopThread τ) : ThreadLabel τ → Option (EventLoopThread τ)
  | .startLoop => if w.owner = .constructed then w.startLoop else none
  | .destroy =>
    match w.owner with
    | .constructed => some { w with owner := .destroyed }
    | .started => some { w with owner := .destroying }
    | _ => none
  | .owner => w.ownerStep
  | .runner => w.runnerStep
  | .latch l =>
    match l with
    | .wait _ => none
    | .count _ => none
    | l => (w.latch_.step l).map fun latch_ => { w with latch_ }
  | .loop l => if w.mayStep l then (w.loop.step l).map fun loop => { w with loop } else none

end EventLoopThread

end mudong.ev
