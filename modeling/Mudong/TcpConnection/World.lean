import Mudong.TcpConnection

namespace mudong.ev

/-- The callbacks `Channel::handleEventWithGuard` still has to consider, in order. -/
inductive Stage where
  | onClose
  | onError
  | onRead
  | onWrite
  deriving DecidableEq, Repr

def Stage.next : Stage → Option Stage
  | .onClose => some .onError
  | .onError => some .onRead
  | .onRead => some .onWrite
  | .onWrite => none

/-- Where the loop thread stands. While it is `handling` a batch it may run callbacks of other channels; the
argument tells what is left of the dispatch of this connection's channel, if it is in the batch. -/
inductive Phase where
  | polling
  | handling (left : Option Stage)
  | running
  deriving DecidableEq, Repr

/-- The three overloads of `send`. -/
inductive Payload where
  | stringView (data : List UInt8)
  | chars (data : List UInt8)
  | buffer (buffer : ValidBuffer)

def Payload.data : Payload → List UInt8
  | .stringView data => data
  | .chars data => data
  | .buffer source => source.readable

/-- The public operations of the connection. -/
inductive Api where
  | send (payload : Payload)
  | shutdown
  | forceClose
  | stopRead
  | startRead

/-- Where another thread stands inside a call: before the exchange of `state_`, before its push to the queue
of the loop, or before its write to the event descriptor. -/
inductive Call where
  | idle
  | shutdownExchange
  | forceCloseExchange
  | push (task : Task)
  | wakeup (task : Task)
  deriving DecidableEq, Repr

/-- The connection, the loop thread and any number of other threads. `tasks` is what is left of the batch
that `doPendingTasks` has swapped out. -/
structure World extends Conn where
  phase : Phase
  tasks : List Task
  calls : Nat → Call

/-- One step. Those of the loop thread carry the results of the system calls they may make, and `call` and
the setters are made by user code that runs in the loop thread. `start` begins a call of another thread,
`advance` takes that thread one step further, and `pushOther` queues a task of some other object. -/
inductive Label where
  | poll (revents : Option Events)
  | dispatch (read : Buffer.ReadvResult) (write : WriteResult)
  | swap
  | task (write : WriteResult)
  | endTasks
  | call (api : Api) (write : WriteResult)
  | useInput (left : ValidBuffer)
  | setWriteCompleteCallback (isSet : Bool)
  | setHighWaterMarkCallback (isSet : Bool) (mark : Nat)
  | start (thread : Nat) (api : Api)
  | advance (thread : Nat)
  | pushOther

namespace Conn

/-- Records that a `send` has read `kConnected`. -/
def observe (c : Conn) (send : Send) : Conn := { c with observed := c.observed ++ [send] }

/-- Records that a `send` has returned. -/
def complete (c : Conn) (send : Send) : Conn := { c with completed := c.completed ++ [send] }

/-- `send(const char*, size_t)` in the loop thread. -/
def sendChars (c : Conn) (data : List UInt8) (result : WriteResult) : Conn :=
  if c.state_ ≠ .kConnected then c
  else
    let send : Send := ⟨.loop, c.observed.length, data⟩
    ((c.observe send).sendInLoop send result).complete send

def sendStringView (c : Conn) (data : List UInt8) (result : WriteResult) : Conn := c.sendChars data result

/-- `send(Buffer&)` in the loop thread, with the caller's buffer afterwards. -/
def sendBuffer (c : Conn) (source : ValidBuffer) (result : WriteResult) : Conn × ValidBuffer :=
  if c.state_ ≠ .kConnected then (c, source) else (c.sendChars source.readable result, source.retrieveAll)

def send (c : Conn) (result : WriteResult) : Payload → Conn
  | .stringView data => c.sendStringView data result
  | .chars data => c.sendChars data result
  | .buffer source => (c.sendBuffer source result).1

theorem send_eq (c : Conn) (result : WriteResult) (payload : Payload) :
    c.send result payload = c.sendChars payload.data result := by
  cases payload with
  | stringView data => rfl
  | chars data => rfl
  | buffer source =>
    by_cases hstate : c.state_ ≠ .kConnected
    · simp [send, sendBuffer, sendChars, hstate]
    · simp [send, sendBuffer, hstate, Payload.data]

/-- Marks the sends of the thread that now calls `shutdown()`. -/
def follow (c : Conn) (thread : Thread) : Conn :=
  { c with followed := c.followed ++ c.observed.filter (·.thread = thread) }

/-- `shutdown` in the loop thread. No other thread can make the state `kDisconnected`, so that nothing is
lost by taking the assertion and the exchange as one step. -/
def shutdown (c : Conn) : Conn :=
  let c := (c.check .shutdown (c.state_ ≠ .kDisconnected)).follow .loop
  let (old, c) := c.stateAtomicGetAndSet .kDisconnecting
  if old = .kConnected then c.shutdownInLoop else c

def forceClose (c : Conn) : Conn :=
  if c.state_ ≠ .kDisconnected then
    let (old, c) := c.stateAtomicGetAndSet .kDisconnecting
    if old ≠ .kDisconnected then c.queueInLoop .forceCloseInLoop else c
  else c

/-- A public operation called in the loop thread. -/
def callInLoop (c : Conn) (result : WriteResult) : Api → Conn
  | .send payload => c.send result payload
  | .shutdown => c.shutdown
  | .forceClose => c.forceClose
  | .stopRead => c.stopReadInLoop
  | .startRead => c.startReadInLoop

/-- A task of the queue. The user's callbacks and other objects' tasks do nothing by themselves; what they
call on the connection are steps of their own. -/
def runTask (c : Conn) (result : WriteResult) : Task → Conn
  | .sendInLoop send => c.sendInLoop send result
  | .shutdownInLoop => c.shutdownInLoop
  | .forceCloseInLoop => c.forceCloseInLoop
  | .stopRead => c.stopReadInLoop
  | .startRead => c.startReadInLoop
  | .writeComplete => c
  | .highWaterMark _ => c
  | .other => c

/-- One callback of `Channel::handleEventWithGuard`, if the reported mask asks for it. -/
def runStage (c : Conn) (read : Buffer.ReadvResult) (write : WriteResult) : Stage → Conn
  | .onClose =>
    if Mask.has c.channel_.revents_ EPOLLHUP && !Mask.has c.channel_.revents_ EPOLLIN then c.handleClose else c
  | .onError => if Mask.has c.channel_.revents_ EPOLLERR then c.handleError else c
  | .onRead =>
    if Mask.has c.channel_.revents_ (EPOLLIN ||| EPOLLPRI ||| EPOLLRDHUP) then c.handleRead read else c
  | .onWrite => if Mask.has c.channel_.revents_ EPOLLOUT then c.handleWrite write else c

end Conn

namespace World

/-- A constructed connection: nothing has happened, no other thread is in a call, and the loop may hold
tasks of other objects. -/
def constructed (others wakeups : Nat) : World :=
  { state_ := .kConnecting
    channel_ := Channel.init
    inputBuffer_ := ValidBuffer.init Buffer.kInitialSize
    outputBuffer_ := ValidBuffer.init Buffer.kInitialSize
    highWaterMark_ := 0
    writeCompleteCallback_ := false
    highWaterMarkCallback_ := false
    quit_ := false
    doingPendingTasks_ := false
    pendingTasks_ := List.replicate others .other
    wakeupfd_ := wakeups
    accepted := []
    executed := []
    observed := []
    completed := []
    followed := []
    halfCloses := []
    closes := 0
    messages := 0
    failures := []
    entry := none
    phase := .handling none
    tasks := []
    calls := fun _ => .idle }

/-- The connection as `newConnection` leaves it, in the handler of the acceptor or the connector. -/
def established (others wakeups : Nat) : World :=
  let w := constructed others wakeups
  { w with toConn := w.connectEstablished }

def setCall (w : World) (thread : Nat) (call : Call) : World :=
  { w with calls := Function.update w.calls thread call }

/-- The beginning of a call in another thread, up to and including its read of `state_`. -/
def startCall (w : World) (thread : Nat) : Api → World
  | .send payload =>
    if w.state_ ≠ .kConnected then w
    else
      let send : Send := ⟨.other thread, w.observed.length, payload.data⟩
      setCall { w with toConn := w.observe send } thread (.push (.sendInLoop send))
  | .shutdown =>
    setCall { w with toConn := (w.check .shutdown (w.state_ ≠ .kDisconnected)).follow (.other thread) } thread
      .shutdownExchange
  | .forceClose => if w.state_ ≠ .kDisconnected then w.setCall thread .forceCloseExchange else w
  | .stopRead => w.setCall thread (.push .stopRead)
  | .startRead => w.setCall thread (.push .startRead)

/-- The send that completes when its task's wakeup has been written. -/
def completes : Task → List Send
  | .sendInLoop send => [send]
  | _ => []

/-- The next step of a call in another thread. -/
def advanceCall (w : World) (thread : Nat) : Option World :=
  match w.calls thread with
  | .idle => none
  | .shutdownExchange =>
    let (old, c) := w.stateAtomicGetAndSet .kDisconnecting
    some (setCall { w with toConn := c } thread (if old = .kConnected then .push .shutdownInLoop else .idle))
  | .forceCloseExchange =>
    let (old, c) := w.stateAtomicGetAndSet .kDisconnecting
    some (setCall { w with toConn := c } thread (if old ≠ .kDisconnected then .push .forceCloseInLoop else .idle))
  | .push task => some (setCall { w with toEventLoop := w.push task } thread (.wakeup task))
  | .wakeup task =>
    some (setCall { w with toEventLoop := w.wakeup, completed := w.completed ++ completes task } thread .idle)

/-- The length of the argument of the `::write` that a step of the loop thread may make. -/
def writeLength (w : World) : Label → Nat
  | .dispatch _ _ => w.outputBuffer_.readableBytes
  | .task _ =>
    match w.tasks with
    | .sendInLoop send :: _ => send.data.length
    | _ => 0
  | .call (.send payload) _ => payload.data.length
  | _ => 0

def step (w : World) (l : Label) : Option World :=
  match l with
  | .poll none => if w.phase = .polling then some { w with phase := .handling none } else none
  | .poll (some revents_) =>
    if w.phase = .polling ∧ Reportable w.entry revents_ then
      some { w with channel_ := { w.channel_ with revents_ }, phase := .handling (some .onClose) }
    else none
  | .dispatch read write =>
    match w.phase with
    | .handling (some stage) =>
      if write.Fits (w.writeLength l) then
        some { w with toConn := w.runStage read write stage, phase := .handling stage.next }
      else none
    | _ => none
  | .swap =>
    if w.phase = .handling none then
      some { w with phase := .running, tasks := w.pendingTasks_, pendingTasks_ := [], doingPendingTasks_ := true }
    else none
  | .task write =>
    match w.phase, w.tasks with
    | .running, task :: rest =>
      if write.Fits (w.writeLength l) then some { w with toConn := w.runTask write task, tasks := rest } else none
    | _, _ => none
  | .endTasks =>
    if w.phase = .running ∧ w.tasks = [] then some { w with phase := .polling, doingPendingTasks_ := false }
    else none
  | .call api write =>
    if w.phase ≠ .polling ∧ write.Fits (w.writeLength l) then some { w with toConn := w.callInLoop write api }
    else none
  | .useInput inputBuffer_ => if w.phase ≠ .polling then some { w with inputBuffer_ } else none
  | .setWriteCompleteCallback writeCompleteCallback_ =>
    if w.phase ≠ .polling then some { w with writeCompleteCallback_ } else none
  | .setHighWaterMarkCallback highWaterMarkCallback_ highWaterMark_ =>
    if w.phase ≠ .polling then some { w with highWaterMarkCallback_, highWaterMark_ } else none
  | .start thread api => if w.calls thread = .idle then some (w.startCall thread api) else none
  | .advance thread => w.advanceCall thread
  | .pushOther => some { w with toEventLoop := w.push .other }

end World

end mudong.ev
