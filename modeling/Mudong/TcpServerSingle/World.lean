import Mudong.Lib.Shared
import Mudong.TcpConnection.World
import Mudong.TcpServerSingle

namespace mudong.ev

/-- A connection with its descriptor. -/
structure SharedConn extends TcpConnection where
  sockfd_ : Int

/-- The tasks whose closures hold a `TcpConnectionPtr`. Those of `stopRead()` and `startRead()` hold `this`. -/
def Task.captures : Task → Bool
  | .sendInLoop _ => true
  | .shutdownInLoop => true
  | .forceCloseInLoop => true
  | .writeComplete => true
  | .highWaterMark _ => true
  | .stopRead => false
  | .startRead => false
  | .other => false

/-- Where the loop thread stands. While it is `handling` a batch, it may be in the dispatch of a connection's channel,
with the callback that comes next. The server is destroyed after its loop has returned, and the loop after it. -/
inductive ServerPhase where
  | polling
  | handling (current : Option (Nat × Stage))
  | running
  | exited
  | serverDestroyed
  | loopDestroyed
  deriving DecidableEq, Repr

namespace ServerPhase

/-- The connection that `tie_.lock()` keeps during the dispatch of its channel. -/
def guard : ServerPhase → List Nat
  | .handling (some (ptr, _)) => [ptr]
  | _ => []

/-- The loop thread runs user code. -/
def inUserCode : ServerPhase → Bool
  | .handling _ => true
  | .running => true
  | _ => false

end ServerPhase

/-- A server in its loop, with the interest list and any number of other threads. The connections are named by the
numbers of their construction. `batch` are the channels of `activeChannels_` that have not been dispatched, `tasks` the
tasks that `doPendingTasks` has swapped out and not run yet, and `executed` those that it has run, whose closures exist
until it returns. `held` are the `TcpConnectionPtr`s of other threads, and `calls` tells where these stand. The rest
records what has happened: the connections that have been destroyed, with their states, the tasks that were run on a
destroyed connection, and the events that were dispatched to one. -/
structure ServerWorld extends EventLoop (Nat × Task) where
  writeCompleteCallback_ : Bool
  conns : Shared SharedConn
  connections_ : List Nat
  interestList : InterestList Nat
  batch : List Nat
  phase : ServerPhase
  tasks : List (Nat × Task)
  executed : List (Nat × Task)
  held : List (Nat × Nat)
  calls : Nat → Nat × Call
  failures : List Assertion
  deaths : List (Nat × ConnectState)
  misuses : List (Nat × Task)
  dangling : List Nat

/-- One step. `take` begins the dispatch of the next channel of the batch and `dispatch` runs its next callback; `call`
and `configure` are made by user code in the loop thread, which may use up input and set callbacks. Other threads get
and drop `TcpConnectionPtr`s, begin calls and advance in them. -/
inductive ServerStep where
  | poll (ready : List (Int × Events))
  | accept (result : AcceptResult)
  | take
  | dispatch (read : Buffer.ReadvResult) (write : WriteResult)
  | swap
  | task (write : WriteResult)
  | endTasks
  | call (ptr : Nat) (api : Api) (write : WriteResult)
  | configure (ptr : Nat) (inputBuffer_ : ValidBuffer) (writeComplete highWaterMark : Bool) (mark : Nat)
  | quit
  | exit
  | destroyServer
  | destroyLoop
  | hold (thread ptr : Nat)
  | drop (thread ptr : Nat)
  | start (thread ptr : Nat) (api : Api)
  | advance (thread : Nat)

/-- The steps that other threads do not take. -/
def ServerStep.inLoop : ServerStep → Bool
  | .hold _ _ => false
  | .drop _ _ => false
  | .start _ _ _ => false
  | .advance _ => false
  | _ => true

namespace ServerWorld

def init (writeCompleteCallback_ : Bool) : ServerWorld :=
  { (EventLoop.init : EventLoop (Nat × Task)) with
    writeCompleteCallback_
    conns := .empty
    connections_ := []
    interestList := .empty
    batch := []
    phase := .polling
    tasks := []
    executed := []
    held := []
    calls := fun _ => (0, .idle)
    failures := []
    deaths := []
    misuses := []
    dangling := [] }

/-- A connection as its own functions see it: its members, the loop and the interest entry of its descriptor. The
records start afresh, and so does the queue, of which these functions only know the end. -/
def view (s : ServerWorld) (conn : SharedConn) : Conn :=
  { conn.toTcpConnection with
    quit_ := s.quit_
    doingPendingTasks_ := s.doingPendingTasks_
    pendingTasks_ := []
    wakeupfd_ := s.wakeupfd_
    accepted := []
    executed := []
    observed := []
    completed := []
    followed := []
    halfCloses := []
    closes := 0
    messages := 0
    failures := []
    entry := (s.interestList conn.sockfd_).map Registration.events }

/-- The world after a function of the connection `ptr` has made `c` of its view. No descriptor below zero can be
registered. -/
def update (s : ServerWorld) (ptr : Nat) (conn : SharedConn) (c : Conn) : ServerWorld :=
  { s with
    conns := s.conns.set ptr { conn with toTcpConnection := c.toTcpConnection }
    wakeupfd_ := c.wakeupfd_
    pendingTasks_ := s.pendingTasks_ ++ c.pendingTasks_.map fun task => (ptr, task)
    interestList :=
      if conn.sockfd_ < 0 then s.interestList
      else Function.update s.interestList conn.sockfd_ (c.entry.map fun events => ⟨events, ptr⟩)
    failures := s.failures ++ c.failures }

/-- `TcpServerSingle::closeConnection`; `none` stands for the `abort()` of `FATAL`. -/
def closeConnection (s : ServerWorld) (ptr : Nat) : Option ServerWorld :=
  if ptr ∈ s.connections_ then some { s with connections_ := s.connections_.erase ptr } else none

/-- The functions of a connection and, if `handleClose` was run, its `closeCallback_`. -/
def act (s : ServerWorld) (ptr : Nat) (conn : SharedConn) (c : Conn) : Option ServerWorld :=
  if c.closes = 0 then some (s.update ptr conn c) else (s.update ptr conn c).closeConnection ptr

/-- `TcpServerSingle::newConnection`. -/
def newConnection (connfd : Int) (s : ServerWorld) : ServerWorld :=
  let conn : SharedConn :=
    { TcpConnection.init with writeCompleteCallback_ := s.writeCompleteCallback_, sockfd_ := connfd }
  let ptr := s.conns.made
  let s := { s with conns := s.conns.make conn, connections_ := s.connections_ ++ [ptr] }
  s.update ptr conn (s.view conn).connectEstablished

/-- The kernel returns descriptors that are not in use. -/
def fresh (s : ServerWorld) : AcceptResult → Bool
  | .failed _ => true
  | .accepted fd =>
    (List.range s.conns.made).all fun ptr => (s.conns.object ptr).all fun conn => conn.sockfd_ != (fd : Int)

/-- What `epoll_wait` may report for the descriptor `p.1`. -/
def report (s : ServerWorld) (p : Int × Events) : Option (Nat × Events) :=
  (s.interestList p.1).bind fun r => if Reportable (some r.events) p.2 then some (r.channel, p.2) else none

/-- `Channel::setRevents`. -/
def setRevents (conns : Shared SharedConn) (p : Nat × Events) : Shared SharedConn :=
  match conns.object p.1 with
  | some conn => conns.set p.1 { conn with channel_ := { conn.channel_ with revents_ := p.2 } }
  | none => conns

/-- What holds a `TcpConnectionPtr` to a connection. -/
def references (s : ServerWorld) : List Nat :=
  s.connections_ ++ s.phase.guard ++
    ((s.tasks ++ s.executed ++ s.pendingTasks_).filter fun t => t.2.captures).map Prod.fst ++ s.held.map Prod.snd

/-- `~TcpConnection` of every connection that has lost its last reference. It closes the descriptor. -/
def reap (s : ServerWorld) : ServerWorld :=
  let dead := s.conns.swept s.references
  { s with
    conns := s.conns.sweep s.references
    interestList := dead.foldl (fun list p => list.close p.2.sockfd_) s.interestList
    deaths := s.deaths ++ dead.map fun p => (p.1, p.2.state_) }

def setCall (s : ServerWorld) (thread ptr : Nat) (call : Call) : ServerWorld :=
  { s with calls := Function.update s.calls thread (ptr, call) }

/-- The beginning of a call in another thread, up to and including its read of `state_`. -/
def startCall (s : ServerWorld) (thread ptr : Nat) (conn : SharedConn) : Api → ServerWorld
  | .send payload =>
    if conn.state_ ≠ .kConnected then s else s.setCall thread ptr (.push (.sendInLoop ⟨.other thread, 0, payload.data⟩))
  | .shutdown =>
    setCall { s with failures := if conn.state_ ≠ .kDisconnected then s.failures else s.failures ++ [.shutdown] }
      thread ptr .shutdownExchange
  | .forceClose => if conn.state_ ≠ .kDisconnected then s.setCall thread ptr .forceCloseExchange else s
  | .stopRead => s.setCall thread ptr (.push .stopRead)
  | .startRead => s.setCall thread ptr (.push .startRead)

/-- `stateAtomicGetAndSet(kDisconnecting)` in another thread, with what its call comes to. -/
def exchange (s : ServerWorld) (thread ptr : Nat) (conn : SharedConn) (call : Call) : ServerWorld :=
  setCall { s with conns := s.conns.set ptr { conn with state_ := .kDisconnecting } } thread ptr call

/-- The next step of a call in another thread. -/
def advanceCall (s : ServerWorld) (thread : Nat) : Option ServerWorld :=
  match s.calls thread with
  | (_, .idle) => none
  | (ptr, .shutdownExchange) => (s.conns.object ptr).map fun conn =>
    s.exchange thread ptr conn (if conn.state_ = .kConnected then .push .shutdownInLoop else .idle)
  | (ptr, .forceCloseExchange) => (s.conns.object ptr).map fun conn =>
    s.exchange thread ptr conn (if conn.state_ ≠ .kDisconnected then .push .forceCloseInLoop else .idle)
  | (ptr, .push task) => some (setCall { s with toEventLoop := s.push (ptr, task) } thread ptr (.wakeup task))
  | (ptr, .wakeup _) => some (setCall { s with toEventLoop := s.wakeup } thread ptr .idle)

/-- The length of what a task may hand to `::write`. -/
def taskLength : Task → Nat
  | .sendInLoop send => send.data.length
  | _ => 0

/-- The length of what a call may hand to `::write`. -/
def callLength : Api → Nat
  | .send payload => payload.data.length
  | _ => 0

/-- The references that a step gives up are still counted here. -/
def advance (s : ServerWorld) : ServerStep → Option ServerWorld
  | .poll ready =>
    if s.phase = .polling ∧ s.quit_ = false ∧ (ready.map Prod.fst).Nodup then
      (ready.mapM s.report).map fun batch =>
        { s with conns := batch.foldl setRevents s.conns, batch := batch.map Prod.fst, phase := .handling none }
    else none
  | .accept result =>
    if s.phase = .handling none ∧ s.fresh result then Acceptor.handleRead (some newConnection) s result else none
  | .take =>
    match s.phase, s.batch with
    | .handling none, ptr :: rest =>
      if (s.conns.object ptr).isSome then some { s with batch := rest, phase := .handling (some (ptr, .onClose)) }
      else some { s with batch := rest, dangling := s.dangling ++ [ptr] }
    | _, _ => none
  | .dispatch read write =>
    match s.phase with
    | .handling (some (ptr, stage)) =>
      (s.conns.object ptr).bind fun conn =>
        if write.Fits conn.outputBuffer_.readableBytes then
          (s.act ptr conn ((s.view conn).runStage read write stage)).map fun s =>
            { s with phase := .handling (stage.next.map fun stage => (ptr, stage)) }
        else none
    | _ => none
  | .swap =>
    if s.phase = .handling none ∧ s.batch = [] then
      some { s with phase := .running, tasks := s.pendingTasks_, pendingTasks_ := [], doingPendingTasks_ := true }
    else none
  | .task write =>
    match s.phase, s.tasks with
    | .running, (ptr, task) :: rest =>
      let s := { s with tasks := rest, executed := s.executed ++ [(ptr, task)] }
      match s.conns.object ptr with
      | some conn =>
        if write.Fits (taskLength task) then s.act ptr conn ((s.view conn).runTask write task) else none
      | none => some { s with misuses := s.misuses ++ [(ptr, task)] }
    | _, _ => none
  | .endTasks =>
    if s.phase = .running ∧ s.tasks = [] then
      some { s with phase := .polling, executed := [], doingPendingTasks_ := false }
    else none
  | .call ptr api write =>
    (s.conns.object ptr).bind fun conn =>
      if s.phase.inUserCode ∧ write.Fits (callLength api) then s.act ptr conn ((s.view conn).callInLoop write api)
      else none
  | .configure ptr inputBuffer_ writeCompleteCallback_ highWaterMarkCallback_ highWaterMark_ =>
    (s.conns.object ptr).bind fun conn =>
      let conn := { conn with inputBuffer_, writeCompleteCallback_, highWaterMarkCallback_, highWaterMark_ }
      if s.phase.inUserCode then some { s with conns := s.conns.set ptr conn } else none
  | .quit => some { s with quit_ := true }
  | .exit => if s.phase = .polling ∧ s.quit_ = true then some { s with phase := .exited } else none
  | .destroyServer =>
    if s.phase = .exited then some { s with phase := .serverDestroyed, connections_ := [] } else none
  | .destroyLoop =>
    if s.phase = .serverDestroyed then some { s with phase := .loopDestroyed, pendingTasks_ := [] } else none
  | .hold thread ptr =>
    if (s.conns.object ptr).isSome then some { s with held := s.held ++ [(thread, ptr)] } else none
  | .drop thread ptr =>
    if (thread, ptr) ∈ s.held ∧ (s.calls thread).2 = .idle then some { s with held := s.held.erase (thread, ptr) }
    else none
  | .start thread ptr api =>
    (s.conns.object ptr).bind fun conn =>
      if (thread, ptr) ∈ s.held ∧ (s.calls thread).2 = .idle ∧ s.phase ≠ .loopDestroyed then
        some (s.startCall thread ptr conn api)
      else none
  | .advance thread => if s.phase ≠ .loopDestroyed then s.advanceCall thread else none

def step (s : ServerWorld) (l : ServerStep) : Option ServerWorld := (s.advance l).map reap

end ServerWorld

end mudong.ev
