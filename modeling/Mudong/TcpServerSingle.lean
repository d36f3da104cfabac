import Mudong.EPollPoller
import Mudong.TcpConnection

namespace mudong.ev

/-- What a call of `::accept4` returned: `-1` with an `errno`, or a descriptor. -/
inductive AcceptResult where
  | failed (errno : Nat)
  | accepted (fd : Nat)
  deriving DecidableEq, Repr

def EMFILE : Nat := 24
def ECONNABORTED : Nat := 103

namespace AcceptResult

def sockfd : AcceptResult → Int
  | .failed _ => -1
  | .accepted fd => fd

/-- The outcomes after which `Acceptor::handleRead` does not abort the process. -/
def survivable : AcceptResult → Bool
  | .failed errno => errno == ECONNABORTED || errno == EMFILE
  | .accepted _ => true

end AcceptResult

/-- `Acceptor::handleRead` on the state of whoever set the callback; `none` stands for the `abort()` of
`FATAL`. Without a callback the descriptor is closed. -/
def Acceptor.handleRead {σ : Type} (newConnectionCallback_ : Option (Int → σ → σ)) (s : σ) (result : AcceptResult) :
    Option σ :=
  if !result.survivable then none
  else
    match newConnectionCallback_ with
    | some callback => some (callback result.sockfd s)
    | none => some s

def TcpConnection.init : TcpConnection :=
  { state_ := .kConnecting
    channel_ := Channel.init
    inputBuffer_ := ValidBuffer.init Buffer.kInitialSize
    outputBuffer_ := ValidBuffer.init Buffer.kInitialSize
    highWaterMark_ := 0
    writeCompleteCallback_ := false
    highWaterMarkCallback_ := false }

/-- A connection of a server, named by the number of its construction. -/
structure ServerConn extends TcpConnection where
  ptr : Nat
  sockfd_ : Int

/-- The server with the interest list of its loop. `leaving` are the connections that have left `connections_`
and are not destroyed yet. The rest records what has happened: the arguments of `newConnection`, every
connection ever inserted and the connections that `connectionCallback_` was called for. -/
structure TcpServerSingle where
  writeCompleteCallback_ : Bool
  connections_ : List ServerConn
  leaving : List ServerConn
  interestList : InterestList Nat
  newConnections : List Int
  inserted : List ServerConn
  connectionCallbacks : List Nat
  failures : List Assertion

/-- One step of the loop thread: an `accept4` of the acceptor, a close of a connection, or the end of its last
reference. -/
inductive ServerLabel where
  | accept (result : AcceptResult)
  | close (ptr : Nat)
  | destroy (ptr : Nat)
  deriving DecidableEq, Repr

namespace TcpServerSingle

def init (writeCompleteCallback_ : Bool) : TcpServerSingle :=
  { writeCompleteCallback_
    connections_ := []
    leaving := []
    interestList := .empty
    newConnections := []
    inserted := []
    connectionCallbacks := []
    failures := [] }

/-- `assert(p)`. -/
def check (s : TcpServerSingle) (site : Assertion) (p : Prop) [Decidable p] : TcpServerSingle :=
  { s with failures := if p then s.failures else s.failures ++ [site] }

/-- An interest operation on the channel of a connection. -/
def interest (s : TcpServerSingle) (conn : ServerConn) (op : InterestOp) : ServerConn × TcpServerSingle :=
  let s := s.check .updateChannel
    (EPollPoller.UpdateAsserts { conn.channel_ with events_ := op.apply conn.channel_.events_ })
  let updated := s.interestList.interest conn.sockfd_ conn.ptr conn.channel_ op
  ({ conn with channel_ := updated.1 }, { s with interestList := updated.2 })

/-- `TcpConnection::connectEstablished`. -/
def connectEstablished (s : TcpServerSingle) (conn : ServerConn) : ServerConn × TcpServerSingle :=
  (s.check .connectEstablished (conn.state_ = .kConnecting)).interest { conn with state_ := .kConnected } .enableRead

/-- The connection is established after its insertion, through the pointer in the set. -/
def newConnection (connfd : Int) (s : TcpServerSingle) : TcpServerSingle :=
  let conn : ServerConn :=
    { TcpConnection.init with
      writeCompleteCallback_ := s.writeCompleteCallback_, ptr := s.inserted.length, sockfd_ := connfd }
  let (conn, s) := s.connectEstablished conn
  { s with connections_ := s.connections_ ++ [conn]
           newConnections := s.newConnections ++ [connfd]
           inserted := s.inserted ++ [conn]
           connectionCallbacks := s.connectionCallbacks ++ [conn.ptr] }

/-- `TcpConnection::handleClose` and, through its callback, `closeConnection`. -/
def closeConnection (s : TcpServerSingle) (conn : ServerConn) : TcpServerSingle :=
  let s := s.check .handleClose (conn.state_ = .kConnected ∨ conn.state_ = .kDisconnecting)
  let (closed, s) := s.interest { conn with state_ := .kDisconnected } .disableAll
  { s with connections_ := s.connections_.filter (·.ptr ≠ conn.ptr)
           leaving := s.leaving ++ [closed]
           connectionCallbacks := s.connectionCallbacks ++ [conn.ptr] }

/-- `~TcpConnection`, which closes the descriptor. -/
def destroy (s : TcpServerSingle) (conn : ServerConn) : TcpServerSingle :=
  { s with leaving := s.leaving.filter (·.ptr ≠ conn.ptr), interestList := s.interestList.close conn.sockfd_ }

/-- The kernel returns descriptors that are not in use. -/
def fresh (s : TcpServerSingle) : AcceptResult → Bool
  | .failed _ => true
  | .accepted fd => (s.connections_ ++ s.leaving).all fun conn => conn.sockfd_ ≠ fd

def step (s : TcpServerSingle) : ServerLabel → Option TcpServerSingle
  | .accept result => if s.fresh result then Acceptor.handleRead (some newConnection) s result else none
  | .close ptr => (s.connections_.find? (·.ptr = ptr)).map s.closeConnection
  | .destroy ptr => (s.leaving.find? (·.ptr = ptr)).map s.destroy

end TcpServerSingle

end mudong.ev
