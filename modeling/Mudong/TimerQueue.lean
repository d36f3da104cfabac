import Mathlib.Data.List.Sort
import Mudong.EventLoop
import Mudong.Lib.Int64

namespace mudong.ev

/-- Nanoseconds since the epoch, and durations in nanoseconds. Their arithmetic wraps around. -/
abbrev Timestamp : Type := Int64
abbrev Nanoseconds : Type := Int64

structure Timer where
  when_ : Timestamp
  interval_ : Nanoseconds
  repeat_ : Bool
  canceled_ : Bool
  deriving DecidableEq, Repr

namespace Timer

def init (when_ : Timestamp) (interval_ : Nanoseconds) : Timer :=
  { when_, interval_, repeat_ := decide (0 < interval_), canceled_ := false }

def expired (t : Timer) (now : Timestamp) : Bool := decide (t.when_ ≤ now)
def restart (t : Timer) : Timer := { t with when_ := t.when_ + t.interval_ }
def cancel (t : Timer) : Timer := { t with canceled_ := true }

end Timer

/-- The null pointer. Timers are named by their addresses, all of them above it. -/
def nullptr : Nat := 0

/-- An element of the set of timers, which is ordered by time and then by address. -/
structure Entry where
  first : Timestamp
  second : Nat
  deriving DecidableEq, Repr

def Entry.lt (e f : Entry) : Prop := e.first < f.first ∨ e.first = f.first ∧ e.second < f.second

instance : DecidableRel Entry.lt := fun _ _ => inferInstanceAs (Decidable (_ ∨ _))

namespace TimerList

/-- `std::set::insert`: the set afterwards, and whether the element is new in it. -/
def insert (timers : List Entry) (e : Entry) : List Entry × Bool :=
  if e ∈ timers then (timers, false) else (timers.orderedInsert Entry.lt e, true)

end TimerList

/-- The timer descriptor: when it expires next, and whether an expiry has not been read yet. The deadline is on the
kernel's clock, which goes with the system clock and does not wrap around. -/
structure Timerfd where
  deadline : Option Int
  unread : Bool
  deriving DecidableEq, Repr

/-- `durationFromNow`, at least a millisecond. -/
def durationFromNow (when_ now : Timestamp) : Nanoseconds := max (when_ - now) 1000000

/-- `timerfdSet` at the time `now`. -/
def timerfdSet (when_ now : Timestamp) : Timerfd :=
  { deadline := some (now.toInt + (durationFromNow when_ now).toInt), unread := false }

def timerfdRead (fd : Timerfd) : Timerfd := { fd with unread := false }

/-- The kernel at the time `now`. -/
def Timerfd.expire (fd : Timerfd) (now : Timestamp) : Timerfd :=
  match fd.deadline with
  | some deadline => if deadline ≤ now.toInt then { deadline := none, unread := true } else fd
  | none => fd

inductive Status where
  | unused
  | live
  | deleted
  deriving DecidableEq, Repr

/-- What the queue does with a timer through its pointer. -/
inductive Use where
  | run
  | insert
  | expired
  | canceled
  | repeats
  | restart
  | when
  | cancel
  | delete
  deriving DecidableEq, Repr

inductive TimerAssertion where
  | inserted
  | expired
  | canceled
  | repeats
  deriving DecidableEq, Repr

/-- The timer queue and the timers themselves. A deleted timer keeps its last contents, and what is done with
it after its deletion is recorded in `misuses`; `runs` lists the timers that have been run, with the time of
the dispatch. -/
structure TimerQueue where
  timers_ : List Entry
  timerfd_ : Timerfd
  object : Nat → Timer
  status : Nat → Status
  misuses : List (Nat × Use)
  failures : List TimerAssertion
  runs : List (Nat × Timestamp)

namespace TimerQueue

def init : TimerQueue :=
  { timers_ := []
    timerfd_ := { deadline := none, unread := false }
    object := fun _ => Timer.init 0 0
    status := fun _ => .unused
    misuses := []
    failures := []
    runs := [] }

def access (q : TimerQueue) (timer : Nat) (use : Use) : TimerQueue :=
  { q with misuses := if q.status timer = .live then q.misuses else q.misuses ++ [(timer, use)] }

/-- `assert(p)`. -/
def check (q : TimerQueue) (site : TimerAssertion) (p : Bool) : TimerQueue :=
  { q with failures := if p then q.failures else q.failures ++ [site] }

def new (q : TimerQueue) (timer : Nat) (when_ : Timestamp) (interval_ : Nanoseconds) : TimerQueue :=
  { q with object := Function.update q.object timer (Timer.init when_ interval_),
           status := Function.update q.status timer .live }

def delete (q : TimerQueue) (timer : Nat) : TimerQueue :=
  let q := q.access timer .delete
  { q with status := Function.update q.status timer .deleted }

/-- The body that `addTimer` runs in the loop, at the time `now`. -/
def addTimerInLoop (q : TimerQueue) (when_ : Timestamp) (timer : Nat) (now : Timestamp) : TimerQueue :=
  let checkPair := TimerList.insert q.timers_ ⟨when_, timer⟩
  let q : TimerQueue := { q.access timer .insert with timers_ := checkPair.1 }
  let q := q.check .inserted checkPair.2
  if q.timers_.head? = some ⟨when_, timer⟩ then { q with timerfd_ := timerfdSet when_ now } else q

/-- The body that `cancelTimer` runs in the loop. -/
def cancelTimerInLoop (q : TimerQueue) (timer : Nat) : TimerQueue :=
  let q := (q.access timer .cancel).check .canceled (!(q.object timer).canceled_)
  let q := { q with object := Function.update q.object timer (q.object timer).cancel }
  let q := q.access timer .when
  let q := { q with timers_ := q.timers_.erase ⟨(q.object timer).when_, timer⟩ }
  q.delete timer

/-- The expired entries, and the queue without them. -/
def getExpired (q : TimerQueue) (now : Timestamp) : List Entry × TimerQueue :=
  let endEntry : Entry := ⟨now + 1, nullptr⟩
  (q.timers_.takeWhile fun e => decide (e.lt endEntry),
    { q with timers_ := q.timers_.dropWhile fun e => decide (e.lt endEntry) })

/-- The first half of the loop body of `handleRead`, up to the callback, and whether the timer is run. -/
def fireTimer (q : TimerQueue) (now : Timestamp) (e : Entry) : TimerQueue × Bool :=
  let q := (q.access e.second .expired).check .expired ((q.object e.second).expired now)
  let q := q.access e.second .canceled
  if (q.object e.second).canceled_ then (q, false)
  else
    let q := q.access e.second .run
    ({ q with runs := q.runs ++ [(e.second, now)] }, true)

/-- The first half of the loop body changes no timer. -/
theorem fireTimer_same (q : TimerQueue) (now : Timestamp) (e : Entry) :
    ((q.fireTimer now e).1.status, (q.fireTimer now e).1.object, (q.fireTimer now e).1.timers_) =
      (q.status, q.object, q.timers_) := by
  cases hcanceled : (q.object e.second).canceled_ <;> simp [fireTimer, access, check, hcanceled]

/-- The second half of the loop body: the timer is put back or deleted. -/
def settleTimer (q : TimerQueue) (e : Entry) : TimerQueue :=
  let timer := e.second
  let q := q.access timer .canceled
  if (q.object timer).canceled_ then q.delete timer
  else
    let q := q.access timer .repeats
    if (q.object timer).repeat_ then
      let q := (q.access timer .restart).check .repeats (q.object timer).repeat_
      let q := { q with object := Function.update q.object timer (q.object timer).restart }
      let q := (q.access timer .when).access timer .insert
      { q with timers_ := (TimerList.insert q.timers_ ⟨(q.object timer).when_, timer⟩).1 }
    else q.delete timer

/-- A timer that repeats and is not cancelled is put back. -/
theorem settleTimer_repeats {q : TimerQueue} {e : Entry} (hcanceled : (q.object e.second).canceled_ = false)
    (hrepeat : (q.object e.second).repeat_ = true) :
    (q.settleTimer e).timers_ = (TimerList.insert q.timers_ ⟨(q.object e.second).restart.when_, e.second⟩).1 ∧
      (q.settleTimer e).object = Function.update q.object e.second (q.object e.second).restart ∧
      (q.settleTimer e).status = q.status := by
  simp [settleTimer, access, check, hcanceled, hrepeat]

/-- Any other timer is deleted. -/
theorem settleTimer_deletes {q : TimerQueue} {e : Entry}
    (hdeletes : (q.object e.second).canceled_ = true ∨ (q.object e.second).repeat_ = false) :
    (q.settleTimer e).timers_ = q.timers_ ∧ (q.settleTimer e).object = q.object ∧
      (q.settleTimer e).status = Function.update q.status e.second .deleted := by
  cases hcanceled : (q.object e.second).canceled_ with
  | true => simp [settleTimer, delete, access, hcanceled]
  | false => simp [settleTimer, delete, access, hcanceled, hdeletes.resolve_left (by simp [hcanceled])]

/-- The end of `handleRead` at the time `now`. -/
def rearm (q : TimerQueue) (now : Timestamp) : TimerQueue :=
  match q.timers_ with
  | [] => q
  | e :: _ => { q with timerfd_ := timerfdSet e.first now }

end TimerQueue

/-- The tasks that other threads queue through `runInLoop`. -/
inductive TimerTask where
  | addTimer (when_ : Timestamp) (timer : Nat)
  | cancelTimer (timer : Nat)
  | other
  deriving DecidableEq, Repr

/-- Where the loop thread stands. In `handleRead` it is either about to take the next entry of `getExpired`,
or past the callback of `entry`, which was run if `ran` says so. -/
inductive TimerPhase where
  | polling
  | handling
  | expiring (now : Timestamp) (rest : List Entry)
  | calling (now : Timestamp) (entry : Entry) (rest : List Entry) (ran : Bool)
  | running
  deriving DecidableEq, Repr

/-- The loop thread runs user code: event handlers, tasks or the callback of a timer. -/
def TimerPhase.inUserCode : TimerPhase → Bool
  | .handling => true
  | .calling _ _ _ ran => ran
  | .running => true
  | _ => false

/-- The timer queue in its loop. `tasks` is what is left of the batch that `doPendingTasks` has swapped out,
and `requested` lists the timers for which `cancelTimer` has been called. -/
structure TimerWorld extends TimerQueue, EventLoop TimerTask where
  time : Timestamp
  phase : TimerPhase
  tasks : List TimerTask
  requested : List Nat

/-- One step. `addTimer` and `cancelTimer` are called in the loop thread and run their bodies at once; the
calls of other threads allocate and queue them, and it does not matter here when they write to the event
descriptor. The address of a new timer is that of no timer before. -/
inductive TimerLabel where
  | tick (duration : Nat)
  | poll
  | addTimer (timer : Nat) (when_ : Timestamp) (interval : Nanoseconds)
  | cancelTimer (timer : Nat)
  | addTimerElsewhere (timer : Nat) (when_ : Timestamp) (interval : Nanoseconds)
  | cancelTimerElsewhere (timer : Nat)
  | pushOther
  | handleRead
  | fire
  | settle
  | endRead
  | swap
  | task
  | endTasks
  deriving DecidableEq, Repr

namespace TimerWorld

def init (time : Timestamp) : TimerWorld :=
  { TimerQueue.init, (EventLoop.init : EventLoop TimerTask) with
    time, phase := .handling, tasks := [], requested := [] }

/-- A task of the queue. -/
def runTask (w : TimerWorld) : TimerTask → TimerQueue
  | .addTimer when_ timer => w.addTimerInLoop when_ timer w.time
  | .cancelTimer timer => w.cancelTimerInLoop timer
  | .other => w.toTimerQueue

def step (w : TimerWorld) (l : TimerLabel) : Option TimerWorld :=
  match l with
  | .tick duration =>
    if w.time.toInt + duration < 2 ^ 63 then
      let time := w.time + .ofNat duration
      some { w with time, timerfd_ := w.timerfd_.expire time }
    else none
  | .poll => if w.phase = .polling then some { w with phase := .handling } else none
  | .addTimer timer when_ interval =>
    if w.phase.inUserCode ∧ timer ≠ nullptr ∧ w.status timer = .unused then
      some { w with toTimerQueue := (w.new timer when_ interval).addTimerInLoop when_ timer w.time }
    else none
  | .cancelTimer timer =>
    if w.phase.inUserCode ∧ w.status timer ≠ .unused then
      some { w with toTimerQueue := w.cancelTimerInLoop timer, requested := w.requested ++ [timer] }
    else none
  | .addTimerElsewhere timer when_ interval =>
    if timer ≠ nullptr ∧ w.status timer = .unused then
      some { w with toTimerQueue := w.new timer when_ interval,
                    toEventLoop := (w.push (.addTimer when_ timer)).wakeup }
    else none
  | .cancelTimerElsewhere timer =>
    if w.status timer ≠ .unused then
      some { w with toEventLoop := (w.push (.cancelTimer timer)).wakeup, requested := w.requested ++ [timer] }
    else none
  | .pushOther => some { w with toEventLoop := (w.push .other).wakeup }
  | .handleRead =>
    if w.phase = .handling then
      let q : TimerQueue := { w.toTimerQueue with timerfd_ := timerfdRead w.timerfd_ }
      let expired := q.getExpired w.time
      some { w with toTimerQueue := expired.2, phase := .expiring w.time expired.1 }
    else none
  | .fire =>
    match w.phase with
    | .expiring now (e :: rest) =>
      let fired := w.fireTimer now e
      some { w with toTimerQueue := fired.1, phase := .calling now e rest fired.2 }
    | _ => none
  | .settle =>
    match w.phase with
    | .calling now e rest _ => some { w with toTimerQueue := w.settleTimer e, phase := .expiring now rest }
    | _ => none
  | .endRead =>
    match w.phase with
    | .expiring _ [] => some { w with toTimerQueue := w.rearm w.time, phase := .handling }
    | _ => none
  | .swap =>
    if w.phase = .handling then
      some { w with phase := .running, tasks := w.pendingTasks_, pendingTasks_ := [], doingPendingTasks_ := true }
    else none
  | .task =>
    match w.phase, w.tasks with
    | .running, task :: rest => some { w with toTimerQueue := w.runTask task, tasks := rest }
    | _, _ => none
  | .endTasks =>
    if w.phase = .running ∧ w.tasks = [] then some { w with phase := .polling, doingPendingTasks_ := false }
    else none

end TimerWorld

end mudong.ev
