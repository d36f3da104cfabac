import Mudong.EventLoop.Quit
import Mudong.Lib.Monitor

namespace mudong.ev

/-- Where the thread of the base loop stands, in `startInLoop` or in the destructor. It owns `mutex_` in `testing`,
`sleeping` and `unlocking`. The indices are those of the loops over the threads. -/
inductive BasePc where
  | idle
  | initializing
  | listening
  | spawning (i : Nat)
  | locking (i : Nat)
  | testing (i : Nat)
  | sleeping (i : Nat)
  | waiting (i : Nat)
  | woken (i : Nat)
  | unlocking (i : Nat)
  | storing (i : Nat)
  | running
  | destroying (i : Nat)
  | quitting (i : Nat)
  | waking (i : Nat)
  | joining (threads : List Nat)
  | destroyed
  deriving DecidableEq, Repr

namespace BasePc

def inside : BasePc → Bool
  | .testing _ => true
  | .sleeping _ => true
  | .unlocking _ => true
  | _ => false

def wake : BasePc → BasePc
  | .waiting i => .woken i
  | pc => pc

end BasePc

/-- Where a thread of its own stands in `runInThread`. It owns `mutex_` from `publishing` to `unlocking`. -/
inductive SubPc where
  | unborn
  | constructing
  | locking
  | publishing
  | notifying
  | unlocking
  | initializing
  | listening
  | looping
  | clearing
  | destructing
  | finished
  deriving DecidableEq, Repr

namespace SubPc

def inside : SubPc → Bool
  | .publishing => true
  | .notifying => true
  | .unlocking => true
  | _ => false

/-- The `EventLoop` on the stack of the thread exists. -/
def alive : SubPc → Bool
  | .unborn => false
  | .constructing => false
  | .finished => false
  | _ => true

end SubPc

/-- A failed assertion of `quit`, and a `quit` of a loop that is gone. -/
inductive ServerFault where
  | quit (i : Nat)
  | dangling (i : Nat)
  deriving DecidableEq, Repr

/-- The server with the thread of its base loop and the threads it starts, each with its loop. `eventLoops_` tells
which pointers are set, `threads_` holds the numbers of the stored threads, and `mutex_` the number of its owner,
`0` for the thread of the base loop. `inits` lists the calls of `threadInitCallback_` and `listens` the acceptors that
have begun to listen. -/
structure TcpServer (τ : Type) where
  numThreads_ : Nat
  started_ : Bool
  eventLoops_ : List Bool
  threads_ : List Nat
  mutex_ : Option Nat
  startQueued : Bool
  base : BasePc
  subs : Nat → SubPc
  loops : Nat → LoopWorld τ
  inits : List Nat
  listens : List Nat
  faults : List ServerFault

/-- A call of `setNumThread`, of `start` (in the thread of the base loop or in another one) or of the destructor, the
queued `startInLoop`, the next step of a thread, a spurious wakeup, or a step of one of the loops. -/
inductive TcpServerLabel (τ : Type) where
  | setNumThread (n : Nat)
  | start (inLoop : Bool)
  | startInLoop
  | destroy
  | base
  | spurious
  | sub (i : Nat)
  | loop (i : Nat) (l : LoopLabel τ)
  deriving DecidableEq, Repr

namespace TcpServer

variable {τ : Type}

def init : TcpServer τ :=
  { numThreads_ := 1
    started_ := false
    eventLoops_ := []
    threads_ := []
    mutex_ := none
    startQueued := false
    base := .idle
    subs := fun _ => .unborn
    loops := fun _ => LoopWorld.init
    inits := []
    listens := []
    faults := [] }

/-- `thread` has locked `mutex_` and is inside it. -/
def inside (w : TcpServer τ) : Nat → Bool
  | 0 => w.base.inside
  | i + 1 => (w.subs (i + 1)).inside

/-- `eventLoops_[i] != nullptr`. -/
def pointed (w : TcpServer τ) (i : Nat) : Bool := w.eventLoops_.getD i false

def setSub (w : TcpServer τ) (i : Nat) (pc : SubPc) : TcpServer τ := { w with subs := Function.update w.subs i pc }

def setLoop (w : TcpServer τ) (i : Nat) (loop : LoopWorld τ) : TcpServer τ :=
  { w with loops := Function.update w.loops i loop }

def check (w : TcpServer τ) (fault : ServerFault) (p : Prop) [Decidable p] : TcpServer τ :=
  { w with faults := if p then w.faults else w.faults ++ [fault] }

/-- The vector grows by null pointers or loses its last elements. -/
def setNumThread (w : TcpServer τ) (n : Nat) : TcpServer τ :=
  if 0 < n then
    { w with numThreads_ := n, eventLoops_ := w.eventLoops_.take n ++ List.replicate (n - w.eventLoops_.length) false }
  else w

/-- `start()`, which the first call of all threads alone gets past. -/
def start (w : TcpServer τ) (inLoop : Bool) : Option (TcpServer τ) :=
  if w.started_ then some w
  else if inLoop then
    if w.base = .idle then some { w with started_ := true, base := .initializing } else none
  else some { w with started_ := true, startQueued := true }

/-- A step of the destructor in `loop->quit()`. -/
def quitStep (w : TcpServer τ) (i : Nat) (l : LoopLabel τ) (next : BasePc) : Option (TcpServer τ) :=
  if (w.subs i).alive then ((w.loops i).step l).map fun loop => { w.setLoop i loop with base := next }
  else some { w with base := next, faults := w.faults ++ [.dangling i] }

/-- The next step of the thread of the base loop. -/
def baseStep (w : TcpServer τ) : Option (TcpServer τ) :=
  match w.base with
  | .initializing => some { w with inits := w.inits ++ [0], base := .listening }
  | .listening => some { w with listens := w.listens ++ [0], base := .spawning 1 }
  | .spawning i =>
    some (if i < w.numThreads_ then { w.setSub i .constructing with base := .locking i }
      else { w with base := .running })
  | .locking i => if w.mutex_ = none then some { w with mutex_ := some 0, base := .testing i } else none
  | .testing i => some { w with base := if w.pointed i then .unlocking i else .sleeping i }
  | .sleeping i => some { w with mutex_ := none, base := .waiting i }
  | .woken i => if w.mutex_ = none then some { w with mutex_ := some 0, base := .testing i } else none
  | .unlocking i => some { w with mutex_ := none, base := .storing i }
  | .storing i => some { w with threads_ := w.threads_ ++ [i], base := .spawning (i + 1) }
  | .destroying i =>
    some { w with base :=
      if i < w.eventLoops_.length then if w.pointed i then .quitting i else .destroying (i + 1)
      else .joining w.threads_ }
  | .quitting i => (w.check (.quit i) ((w.loops i).quit_ = false)).quitStep i (.quit 0) (.waking i)
  | .waking i => w.quitStep i (.wakeup 0) (.destroying (i + 1))
  | .joining [] => some { w with base := .destroyed }
  | .joining (i :: rest) => if w.subs i = .finished then some { w with base := .joining rest } else none
  | _ => none

/-- The next step of a thread in `runInThread`, outside of `loop()`. -/
def subStep (w : TcpServer τ) (i : Nat) : Option (TcpServer τ) :=
  match w.subs i with
  | .constructing => some (w.setSub i .locking)
  | .locking => if w.mutex_ = none then some { w.setSub i .publishing with mutex_ := some i } else none
  | .publishing =>
    ((w.loops i).step .publish).map fun loop =>
      { (w.setLoop i loop).setSub i .notifying with eventLoops_ := w.eventLoops_.set i true }
  | .notifying => some { w.setSub i .unlocking with base := w.base.wake }
  | .unlocking => some { w.setSub i .initializing with mutex_ := none }
  | .initializing => some { w.setSub i .listening with inits := w.inits ++ [i] }
  | .listening =>
    ((w.loops i).step .enter).map fun loop =>
      { (w.setLoop i loop).setSub i .looping with listens := w.listens ++ [i] }
  | .looping => if (w.loops i).pc matches .left then some (w.setSub i .clearing) else none
  | .clearing => some { w.setSub i .destructing with eventLoops_ := w.eventLoops_.set i false }
  | .destructing => some (w.setSub i .finished)
  | _ => none

/-- Who may take a step of a loop: its thread while it is in `loop()`, and those who send through its connections.
Nobody but the destructor, as thread `0`, has the pointer that `quit` needs. -/
def mayStep (w : TcpServer τ) (i : Nat) : LoopLabel τ → Bool
  | .publish => false
  | .enter => false
  | .quit _ => false
  | .quitInLoop => false
  | .push thread _ => w.subs i = .looping && 0 < thread
  | .wakeup thread => (w.subs i).alive && 0 < thread
  | _ => w.subs i = .looping

def step (w : TcpServer τ) : TcpServerLabel τ → Option (TcpServer τ)
  | .setNumThread n => if w.base = .idle ∨ w.base = .running then some (w.setNumThread n) else none
  | .start inLoop => w.start inLoop
  | .startInLoop =>
    if w.base = .idle ∧ w.startQueued then some { w with startQueued := false, base := .initializing } else none
  | .destroy => if w.base = .idle ∨ w.base = .running then some { w with base := .destroying 0 } else none
  | .base => w.baseStep
  | .spurious =>
    match w.base with
    | .waiting i => some { w with base := .woken i }
    | _ => none
  | .sub i => w.subStep i
  | .loop i l => if w.mayStep i l then ((w.loops i).step l).map fun loop => w.setLoop i loop else none

end TcpServer

end mudong.ev
