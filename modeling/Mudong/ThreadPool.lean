import Mudong.Lib.Monitor
import Mathlib.Data.Fintype.Sum

namespace mudong.ev

open Monitor (Stand)

/-- Where a worker stands in `runInThread` and `take`. It owns `mutex_` from `testing` to `sleeping`, and from
`taking` to `returning`. -/
inductive WorkerPc (τ : Type) where
  | loop
  | locking
  | testing
  | sleeping
  | waiting
  | woken
  | taking
  | notifying (task : Option τ)
  | returning (task : Option τ)
  | executing (task : τ)
  | left
  deriving DecidableEq, Repr

namespace WorkerPc

variable {τ : Type}

def inside : WorkerPc τ → Bool
  | .testing => true
  | .sleeping => true
  | .taking => true
  | .notifying _ => true
  | .returning _ => true
  | _ => false

/-- How the worker stands to `notEmpty_`. -/
def stand : WorkerPc τ → Stand
  | .testing => .checking
  | .taking => .checking
  | .waiting => .waiting
  | .woken => .woken
  | _ => .away

def wake : WorkerPc τ → WorkerPc τ
  | .waiting => .woken
  | pc => pc

def hasLeft : WorkerPc τ → Bool
  | .left => true
  | _ => false

end WorkerPc

/-- Where a thread stands in `runTask`. It owns `mutex_` from `testing` to `sleeping`, and from `pushing` to
`returning`. -/
inductive ProducerPc (τ : Type) where
  | idle
  | locking (task : Option τ)
  | testing (task : Option τ)
  | sleeping (task : Option τ)
  | waiting (task : Option τ)
  | woken (task : Option τ)
  | pushing (task : Option τ)
  | notifying
  | returning
  deriving DecidableEq, Repr

namespace ProducerPc

variable {τ : Type}

def inside : ProducerPc τ → Bool
  | .testing _ => true
  | .sleeping _ => true
  | .pushing _ => true
  | .notifying => true
  | .returning => true
  | _ => false

/-- How the thread stands to `notFull_`. -/
def stand : ProducerPc τ → Stand
  | .testing _ => .checking
  | .pushing _ => .checking
  | .waiting _ => .waiting
  | .woken _ => .woken
  | _ => .away

def wake : ProducerPc τ → ProducerPc τ
  | .waiting task => .woken task
  | pc => pc

end ProducerPc

/-- Where the thread that calls `stop` stands. -/
inductive StopPc where
  | idle
  | locking
  | notifying
  | returning
  | joining
  | returned
  deriving DecidableEq, Repr

def StopPc.inside : StopPc → Bool
  | .notifying => true
  | .returning => true
  | _ => false

/-- The threads that lock `mutex_`. -/
inductive PoolThread (threadNum : Nat) (ι : Type) where
  | worker (i : Fin threadNum)
  | producer (j : ι)
  | stopper
  deriving DecidableEq, Repr

/-- The pool and the threads that use it: its workers, any number of callers of `runTask`, and the caller of
`stop`. A `Task` is a `std::function`, and `none` is the empty one. -/
structure ThreadPool (τ : Type) (threadNum : Nat) (ι : Type) where
  maxQueueSize_ : Nat
  running_ : Bool
  taskQueue_ : List (Option τ)
  mutex_ : Option (PoolThread threadNum ι)
  workers : Fin threadNum → WorkerPc τ
  producers : ι → ProducerPc τ
  stopper : StopPc

/-- One step of a thread: the beginning of a `runTask` or of `stop`, the next step of a thread, or a spurious
wakeup. `wake` is the thread that a `notify_one` wakes. -/
inductive PoolLabel (τ : Type) (threadNum : Nat) (ι : Type) where
  | runTask (j : ι) (task : Option τ)
  | producer (j : ι) (wake : Option (Fin threadNum))
  | worker (i : Fin threadNum) (wake : Option ι)
  | stop
  | stopper
  | spuriousProducer (j : ι)
  | spuriousWorker (i : Fin threadNum)
  deriving DecidableEq, Repr

namespace ThreadPool

variable {τ : Type} {threadNum : Nat} {ι : Type}

def init (maxQueueSize_ : Nat) : ThreadPool τ threadNum ι :=
  { maxQueueSize_
    running_ := true
    taskQueue_ := []
    mutex_ := none
    workers := fun _ => .loop
    producers := fun _ => .idle
    stopper := .idle }

/-- `thread` has locked `mutex_` and is inside it. -/
def inside (pool : ThreadPool τ threadNum ι) : PoolThread threadNum ι → Bool
  | .worker i => (pool.workers i).inside
  | .producer j => (pool.producers j).inside
  | .stopper => pool.stopper.inside

def workerStand (pool : ThreadPool τ threadNum ι) (i : Fin threadNum) : Stand := (pool.workers i).stand
def producerStand (pool : ThreadPool τ threadNum ι) (j : ι) : Stand := (pool.producers j).stand

def setWorker (pool : ThreadPool τ threadNum ι) (i : Fin threadNum) (pc : WorkerPc τ) : ThreadPool τ threadNum ι :=
  { pool with workers := Function.update pool.workers i pc }

/-- The next step of the thread in `stop`, which has stored `running_`. -/
def stopStep (pool : ThreadPool τ threadNum ι) : Option (ThreadPool τ threadNum ι) :=
  match pool.stopper with
  | .idle => none
  | .locking => if pool.mutex_ = none then some { pool with stopper := .notifying, mutex_ := some .stopper } else none
  | .notifying => some { pool with stopper := .returning, workers := fun i => (pool.workers i).wake }
  | .returning => some { pool with stopper := .joining, mutex_ := none }
  | .joining => if ∀ i, (pool.workers i).hasLeft then some { pool with stopper := .returned } else none
  | .returned => none

variable [DecidableEq ι]

def setProducer (pool : ThreadPool τ threadNum ι) (j : ι) (pc : ProducerPc τ) : ThreadPool τ threadNum ι :=
  { pool with producers := Function.update pool.producers j pc }

def wakeWorker (pool : ThreadPool τ threadNum ι) : Option (Fin threadNum) → ThreadPool τ threadNum ι
  | some i => pool.setWorker i (pool.workers i).wake
  | none => pool

def wakeProducer (pool : ThreadPool τ threadNum ι) : Option ι → ThreadPool τ threadNum ι
  | some j => pool.setProducer j (pool.producers j).wake
  | none => pool

/-- The next step of a worker in `runInThread`. -/
def workerStep [Fintype ι] (pool : ThreadPool τ threadNum ι) (i : Fin threadNum) (wake : Option ι) :
    Option (ThreadPool τ threadNum ι) :=
  match pool.workers i with
  | .loop => some (pool.setWorker i (if pool.running_ then .locking else .left))
  | .locking =>
    if pool.mutex_ = none then some { pool.setWorker i .testing with mutex_ := some (.worker i) } else none
  | .testing =>
    some (pool.setWorker i (if pool.taskQueue_ = [] ∧ pool.running_ = true then .sleeping else .taking))
  | .sleeping => some { pool.setWorker i .waiting with mutex_ := none }
  | .waiting => none
  | .woken =>
    if pool.mutex_ = none then some { pool.setWorker i .testing with mutex_ := some (.worker i) } else none
  | .taking =>
    match pool.taskQueue_ with
    | [] => some (pool.setWorker i (.returning none))
    | task :: rest => some { pool.setWorker i (.notifying task) with taskQueue_ := rest }
  | .notifying task =>
    if Monitor.Notifies pool.producerStand wake then some ((pool.wakeProducer wake).setWorker i (.returning task))
    else none
  | .returning none => some { pool.setWorker i .loop with mutex_ := none }
  | .returning (some task) => some { pool.setWorker i (.executing task) with mutex_ := none }
  | .executing _ => some (pool.setWorker i .loop)
  | .left => none

/-- The next step of a thread in `runTask`; the overloads differ in how the task is put into the queue. -/
def producerStep (pool : ThreadPool τ threadNum ι) (j : ι) (wake : Option (Fin threadNum)) :
    Option (ThreadPool τ threadNum ι) :=
  match pool.producers j with
  | .idle => none
  | .locking task =>
    if pool.mutex_ = none then some { pool.setProducer j (.testing task) with mutex_ := some (.producer j) } else none
  | .testing task =>
    some (pool.setProducer j (if pool.maxQueueSize_ ≤ pool.taskQueue_.length then .sleeping task else .pushing task))
  | .sleeping task => some { pool.setProducer j (.waiting task) with mutex_ := none }
  | .waiting _ => none
  | .woken task =>
    if pool.mutex_ = none then some { pool.setProducer j (.testing task) with mutex_ := some (.producer j) } else none
  | .pushing task => some { pool.setProducer j .notifying with taskQueue_ := pool.taskQueue_ ++ [task] }
  | .notifying =>
    if Monitor.Notifies pool.workerStand wake then some ((pool.wakeWorker wake).setProducer j .returning) else none
  | .returning => some { pool.setProducer j .idle with mutex_ := none }

/-- A `runTask` or a `stop` that finds `running_` false fails its assertion. Without workers the task of
`runTask` is executed on the spot. -/
def step [Fintype ι] (pool : ThreadPool τ threadNum ι) : PoolLabel τ threadNum ι → Option (ThreadPool τ threadNum ι)
  | .runTask j task =>
    match pool.running_, pool.producers j with
    | true, .idle => some (if threadNum = 0 then pool else pool.setProducer j (.locking task))
    | _, _ => none
  | .producer j wake => pool.producerStep j wake
  | .worker i wake => pool.workerStep i wake
  | .stop =>
    match pool.running_, pool.stopper with
    | true, .idle => some { pool with running_ := false, stopper := .locking }
    | _, _ => none
  | .stopper => pool.stopStep
  | .spuriousProducer j =>
    if pool.producerStand j = .waiting then some (pool.wakeProducer (some j)) else none
  | .spuriousWorker i => if pool.workerStand i = .waiting then some (pool.wakeWorker (some i)) else none

end ThreadPool

end mudong.ev
