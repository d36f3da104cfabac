import Mudong.Buffer.Valid
import Mudong.Channel
import Mudong.EventLoop

namespace mudong.ev

inductive ConnectState where
  | kConnecting
  | kConnected
  | kDisconnecting
  | kDisconnected
  deriving DecidableEq, Repr

inductive Thread where
  | loop
  | other (index : Nat)
  deriving DecidableEq, Repr

/-- A `send` call that found the connection connected: its caller, its number among all such calls, and the
bytes it was given. The first two are bookkeeping; the closure queued by the code holds the bytes alone. -/
structure Send where
  thread : Thread
  serial : Nat
  data : List UInt8
  deriving DecidableEq, Repr

/-- The tasks in the queue of the connection's loop. `other` is a task of some other object. -/
inductive Task where
  | sendInLoop (send : Send)
  | shutdownInLoop
  | forceCloseInLoop
  | stopRead
  | startRead
  | writeComplete
  | highWaterMark (len : Nat)
  | other
  deriving DecidableEq, Repr

inductive Assertion where
  | connectEstablished
  | shutdown
  | handleRead
  | handleWriteReadable
  | handleWriteWriting
  | handleClose
  | sendInLoop
  | updateChannel
  deriving DecidableEq, Repr

/-- What a call of `::write` returned: `-1` with an `errno`, or the length of the accepted prefix. -/
inductive WriteResult where
  | failed (errno : Nat)
  | accepted (n : Nat)
  deriving DecidableEq, Repr

def EAGAIN : Nat := 11
def EPIPE : Nat := 32
def ECONNRESET : Nat := 104

/-- `::write` accepts at most what it is given. -/
def WriteResult.Fits (len : Nat) : WriteResult → Bool
  | .failed _ => true
  | .accepted n => n ≤ len

/-- The error that makes `sendInLoop` drop the data. -/
def WriteResult.Broken : WriteResult → Bool
  | .failed errno => errno == EPIPE || errno == ECONNRESET
  | .accepted _ => false

/-- The members of the connection, its callbacks represented by whether they are set. -/
structure TcpConnection where
  state_ : ConnectState
  channel_ : Channel
  inputBuffer_ : ValidBuffer
  outputBuffer_ : ValidBuffer
  highWaterMark_ : Nat
  writeCompleteCallback_ : Bool
  highWaterMarkCallback_ : Bool

/-- What was executed and accepted when `::shutdown(sockfd_, SHUT_WR)` was called. -/
structure HalfClose where
  executed : List Send
  accepted : List UInt8
  deriving DecidableEq, Repr

/-- What has happened so far. `observed` lists the sends in the order in which they read `kConnected`,
`completed` those that have returned and `followed` those whose thread has since called `shutdown()`.
`closes` counts the runs of `handleClose`, each of which invokes `closeCallback_`, and `messages` the calls of
`messageCallback_`. Failed assertions are recorded and, as in a build without them, not acted on. -/
structure History where
  accepted : List UInt8
  executed : List Send
  observed : List Send
  completed : List Send
  followed : List Send
  halfCloses : List HalfClose
  closes : Nat
  messages : Nat
  failures : List Assertion

/-- The connection in its loop, with the kernel's interest entry of its descriptor. -/
structure Conn extends TcpConnection, EventLoop Task, History where
  entry : Option Events

namespace Conn

/-- `assert(p)`. -/
def check (c : Conn) (site : Assertion) (p : Prop) [Decidable p] : Conn :=
  { c with failures := if p then c.failures else c.failures ++ [site] }

/-- An interest operation of the channel, down to `epoll_ctl`. -/
def interest (c : Conn) (op : InterestOp) : Conn :=
  let channel_ := { c.channel_ with events_ := op.apply c.channel_.events_ }
  let updated := EPollPoller.updateChannel channel_
  { c.check .updateChannel (EPollPoller.UpdateAsserts channel_) with
    channel_ := updated.1
    entry := epoll_ctl c.entry updated.2 updated.1.events_ }

def enableRead (c : Conn) : Conn := c.interest .enableRead
def enableWrite (c : Conn) : Conn := c.interest .enableWrite
def disableRead (c : Conn) : Conn := c.interest .disableRead
def disableWrite (c : Conn) : Conn := c.interest .disableWrite
def disableAll (c : Conn) : Conn := c.interest .disableAll

/-- `EventLoop::removeChannel`. -/
def removeChannel (c : Conn) : Conn := c.disableAll

def queueInLoop (c : Conn) (task : Task) : Conn := { c with toEventLoop := c.toEventLoop.queueInLoop task }

def connectEstablished (c : Conn) : Conn :=
  enableRead { c.check .connectEstablished (c.state_ = .kConnecting) with state_ := .kConnected }

def shutdownInLoop (c : Conn) : Conn :=
  if c.state_ ≠ .kDisconnected ∧ c.channel_.isWriting = false then
    { c with halfCloses := c.halfCloses ++ [⟨c.executed, c.accepted⟩] }
  else c

def handleClose (c : Conn) : Conn :=
  let c := c.check .handleClose (c.state_ = .kConnected ∨ c.state_ = .kDisconnecting)
  let c := removeChannel { c with state_ := .kDisconnected }
  { c with closes := c.closes + 1 }

/-- Reads the pending socket error and logs it. -/
def handleError (c : Conn) : Conn := c

def forceCloseInLoop (c : Conn) : Conn := if c.state_ ≠ .kDisconnected then c.handleClose else c

/-- The assertion of `handleRead` and its `readFd`. -/
def readInput (c : Conn) (result : Buffer.ReadvResult) : Conn :=
  { c.check .handleRead (c.state_ ≠ .kDisconnected) with inputBuffer_ := (c.inputBuffer_.readFd result).1 }

def handleRead (c : Conn) (result : Buffer.ReadvResult) : Conn :=
  let n := (c.inputBuffer_.readFd result).2
  let c := c.readInput result
  if n = -1 then c.handleError
  else if n = 0 then c.handleClose
  else { c with messages := c.messages + 1 }

/-- `n` bytes of the output buffer have been accepted by `::write`. -/
def retrieveAccepted (c : Conn) (n : Nat) : Conn :=
  { c with accepted := c.accepted ++ c.outputBuffer_.readable.take n,
           outputBuffer_ := c.outputBuffer_.retrieve n }

/-- The branch of `handleWrite` that finds the output buffer emptied. -/
def outputDrained (c : Conn) : Conn :=
  let c := c.disableWrite
  let c := if c.state_ = .kDisconnecting then c.shutdownInLoop else c
  if c.writeCompleteCallback_ then c.queueInLoop .writeComplete else c

/-- The two assertions of `handleWrite`. -/
def checkOutput (c : Conn) : Conn :=
  let c := c.check .handleWriteReadable (0 < c.outputBuffer_.readableBytes)
  c.check .handleWriteWriting (c.channel_.isWriting = true)

def handleWrite (c : Conn) (result : WriteResult) : Conn :=
  if c.state_ = .kDisconnected then c
  else
    let c := c.checkOutput
    match result with
    | .failed _ => c
    | .accepted n =>
      let c := c.retrieveAccepted n
      if c.outputBuffer_.readableBytes = 0 then c.outputDrained else c

/-- The first half of `sendInLoop`: the direct write, with the locals `n`, `remain` and `faultError`. -/
def writeDirectly (c : Conn) (data : List UInt8) (result : WriteResult) : Conn × Nat × Nat × Bool :=
  if c.channel_.isWriting then (c, 0, data.length, false)
  else
    let c := c.check .sendInLoop (c.outputBuffer_.readableBytes = 0)
    match result with
    | .failed errno => (c, 0, data.length, errno ≠ EAGAIN && (errno == EPIPE || errno == ECONNRESET))
    | .accepted n =>
      let c := { c with accepted := c.accepted ++ data.take n }
      let remain := data.length - n
      if remain = 0 ∧ c.writeCompleteCallback_ then (c.queueInLoop .writeComplete, n, remain, false)
      else (c, n, remain, false)

/-- The second half of `sendInLoop`: what was not written goes to the output buffer. -/
def bufferRest (c : Conn) (data : List UInt8) (n remain : Nat) (faultError : Bool) : Conn :=
  if faultError = false ∧ 0 < remain then
    let oldLen := c.outputBuffer_.readableBytes
    let newLen := oldLen + remain
    let c :=
      if c.highWaterMarkCallback_ ∧ oldLen < c.highWaterMark_ ∧ c.highWaterMark_ ≤ newLen then
        c.queueInLoop (.highWaterMark newLen)
      else c
    enableWrite { c with outputBuffer_ := c.outputBuffer_.append ((data.drop n).take remain) }
  else c

def sendInLoop (c : Conn) (send : Send) (result : WriteResult) : Conn :=
  let c := { c with executed := c.executed ++ [send] }
  if c.state_ = .kDisconnected then c
  else
    let (c, n, remain, faultError) := c.writeDirectly send.data result
    c.bufferRest send.data n remain faultError

/-- The tasks queued by `stopRead()` and `startRead()`. -/
def stopReadInLoop (c : Conn) : Conn := if c.channel_.isReading then c.disableRead else c
def startReadInLoop (c : Conn) : Conn := if c.channel_.isReading then c else c.enableRead

/-- `stateAtomicGetAndSet`: the old state and the connection afterwards. -/
def stateAtomicGetAndSet (c : Conn) (newState : ConnectState) : ConnectState × Conn :=
  (c.state_, { c with state_ := newState })

end Conn

end mudong.ev
