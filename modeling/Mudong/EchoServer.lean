import Mudong.TcpConnection.HighWater
import Mudong.TcpConnection.Input
import Mudong.TimerQueue

namespace mudong.ev

/-- A connection of the echo server in the loop of a server with one thread, the default of its constructor, and its
entry in `connections_`. The timer runs in the same loop, and nobody else calls the connection. `tid` is the number of
that thread, `received` what has been read from the socket, `chunks` what the calls of `onMessage` have echoed, `active`
the time of the last `expireAfter`, and `aborted` says that a fatal error has ended the process. -/
structure EchoServer extends World where
  timeout_ : Nanoseconds
  tid : Nat
  now : Timestamp
  connections_ : Option Timestamp
  received : List UInt8
  chunks : List (List UInt8)
  active : Timestamp
  aborted : Bool

/-- One step of the loop with the calls that the server's callbacks make in it, the passing of time, a call of
`onTimeout` by the timer, or a task of some other object. -/
inductive EchoLabel where
  | poll (revents : Option Events)
  | dispatch (read : Buffer.ReadvResult) (write header body : WriteResult)
  | swap
  | task (write : WriteResult)
  | endTasks
  | tick (elapsed : Nat)
  | timeout
  | pushOther

namespace EchoServer

/-- The beginning of each reply. -/
def greeting (tid : Nat) : List UInt8 := ("Echo handled by tid " ++ toString tid ++ " : ").toUTF8.data.toList

/-- `onConnection` with a connection that is up. -/
def init (timeout_ : Nanoseconds) (tid : Nat) (now : Timestamp) (others wakeups : Nat) : EchoServer :=
  { World.established others wakeups with
    writeCompleteCallback_ := true
    highWaterMarkCallback_ := true
    highWaterMark_ := 1024
    timeout_
    tid
    now
    connections_ := some (now + timeout_)
    received := []
    chunks := []
    active := now
    aborted := false }

def expireAfter (e : EchoServer) (interval : Nanoseconds) : EchoServer :=
  { e with connections_ := some (e.now + interval), active := e.now }

/-- The calls of `onMessage` on the connection, and the server afterwards. -/
def onMessage (e : EchoServer) (w : World) (read : Buffer.ReadvResult) (header body : WriteResult) :
    List Label × EchoServer :=
  ([.call (.send (.stringView (greeting e.tid))) header, .call (.send (.buffer w.inputBuffer_)) body,
      .useInput (w.sendBuffer w.inputBuffer_ body).2],
    expireAfter
      { e with
        received := e.received ++ read.data
        chunks := if w.state_ = .kConnected then e.chunks ++ [w.inputBuffer_.readable] else e.chunks }
      e.timeout_)

def onWriteComplete (e : EchoServer) (w : World) : List Label × EchoServer :=
  if w.channel_.isReading then ([], e) else ([.call .startRead (.accepted 0)], e.expireAfter e.timeout_)

def onHighWaterMark (e : EchoServer) : List Label × EchoServer :=
  ([.call .stopRead (.accepted 0)], e.expireAfter (2 * e.timeout_))

/-- `onConnection`, called when the connection has gone down. -/
def onConnection (e : EchoServer) : List Label × EchoServer := ([], { e with connections_ := none })

/-- `TcpServerSingle::closeConnection`, the close callback. The set of the server holds the connection until its first
close, and a connection that is not in it is a fatal error. -/
def closeConnection (e : EchoServer) : List Label × EchoServer :=
  if e.closes = 0 then e.onConnection else ([], { e with aborted := true })

@[simp] theorem closeConnection_calls (e : EchoServer) : e.closeConnection.1 = [] := by
  unfold closeConnection
  split <;> rfl

def onTimeout (e : EchoServer) : List Label × EchoServer :=
  match e.connections_ with
  | some expiry =>
    if expiry ≤ e.now then ([.call .forceClose (.accepted 0)], { e with connections_ := none }) else ([], e)
  | none => ([], e)

/-- The step of the connection that a step of the server begins with. -/
def begins : EchoLabel → List Label
  | .poll revents => [.poll revents]
  | .dispatch read write _ _ => [.dispatch read write]
  | .swap => [.swap]
  | .task write => [.task write]
  | .endTasks => [.endTasks]
  | .tick _ => []
  | .timeout => []
  | .pushOther => [.pushOther]

/-- The callback that is invoked when the connection has come to `w`, if one is. -/
def callback (e : EchoServer) (w : World) : EchoLabel → List Label × EchoServer
  | .dispatch read _ header body =>
    if e.messages < w.messages then e.onMessage w read header body
    else if e.closes < w.closes then e.closeConnection
    else ([], e)
  | .task _ =>
    match e.tasks.head? with
    | some .writeComplete => e.onWriteComplete w
    | some (.highWaterMark _) => e.onHighWaterMark
    | _ => if e.closes < w.closes then e.closeConnection else ([], e)
  | .tick elapsed => ([], { e with now := e.now + .ofNat elapsed })
  | .timeout => e.onTimeout
  | _ => ([], e)

/-- The timer's callback runs before or after the callbacks of the connection's channel, and the clock stays in its
range. -/
def enabled (e : EchoServer) : EchoLabel → Bool
  | .tick elapsed => e.now.toInt + elapsed < 2 ^ 63
  | .timeout => e.phase = .handling none || e.phase = .handling (some .onClose)
  | _ => true

def step (e : EchoServer) (l : EchoLabel) : Option EchoServer :=
  if !e.aborted && e.enabled l then
    (Run.exec World.step e.toWorld (begins l)).bind fun w =>
      (Run.exec World.step w (e.callback w l).1).map fun w' => { (e.callback w l).2 with toWorld := w' }
  else none

end EchoServer

end mudong.ev
