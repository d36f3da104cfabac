import Mudong.TcpServerSingle
import Mudong.TimerQueue

namespace mudong.ev

/-- What a call of `::connect` returned: `0`, or `-1` with an `errno`. -/
inductive ConnectResult where
  | connected
  | failed (errno : Nat)
  deriving DecidableEq, Repr

def EINPROGRESS : Nat := 115
def ENETUNREACH : Nat := 101
def ECONNREFUSED : Nat := 111

/-- The result comes later, with a writable event. -/
def ConnectResult.inProgress (result : ConnectResult) : Bool := result == .failed EINPROGRESS

/-- A connector, named by the number of its construction; each one makes one attempt. `errorCallback_` tells
whether it is set; `newConnectionCallback_` always is, by the client. -/
structure Connector where
  sockfd_ : Int
  connected_ : Bool
  started_ : Bool
  channel_ : Channel
  errorCallback_ : Bool
  attempt : Nat
  deriving DecidableEq, Repr

def Connector.init (sockfd_ attempt : Nat) : Connector :=
  { sockfd_, connected_ := false, started_ := false, channel_ := Channel.init, errorCallback_ := false, attempt }

/-- The channels that a client registers with the poller of its loop. -/
inductive ClientChannel where
  | connector (attempt : Nat)
  | connection (attempt : Nat)
  deriving DecidableEq, Repr

def ClientChannel.isConnection : ClientChannel → Bool
  | .connector _ => false
  | .connection _ => true

/-- The connection of a client, named by the attempt that led to it. -/
structure ClientConn extends TcpConnection where
  attempt : Nat
  sockfd_ : Int

/-- A run of `TcpClient::newConnection`: the timer it found in `retryTimer_` with its status, the timer whose
callback was being executed, and what the interest list held for the descriptor before and after. -/
structure NewConnection where
  attempt : Nat
  timer : Nat
  status : Status
  executing : Option Nat
  before : Option (Registration ClientChannel)
  after : Option (Registration ClientChannel)
  deriving DecidableEq, Repr

inductive ClientAssertion where
  | start
  | handleWrite
  | connectorChannel
  | connectEstablished
  | connectionChannel
  | handleClose
  | closeConnection
  deriving DecidableEq, Repr

/-- The client, with the interest list and the open descriptors as far as they are its own, and the reported
events that the loop has not dispatched yet. `leaving` are the connections that the client has let go of and that
are not destroyed yet, and `retryCallback` is the timer whose callback is `retry`. The rest records what has
happened: `errors` lists the attempts for which `Connector::handleWrite` took the error branch, `retries` the runs of
`retry` by whether they found the client connected, and `dangling` the connectors that were given an event after their
destruction. -/
structure TcpClient where
  connected_ : Bool
  retryTimer_ : Nat
  connector_ : Connector
  connection_ : Option ClientConn
  leaving : List ClientConn
  retryCallback : Option Nat
  interestList : InterestList ClientChannel
  descriptors : List Int
  batch : List (ClientChannel × Events)
  errors : List Nat
  errorCallbacks : List Nat
  newConnections : List NewConnection
  retries : List Bool
  dangling : List Nat
  failures : List ClientAssertion

namespace TcpClient

/-- The constructor, with the descriptor that `socket` returned. -/
def init (sockfd_ : Nat) : TcpClient :=
  { connected_ := false
    retryTimer_ := nullptr
    connector_ := Connector.init sockfd_ 0
    connection_ := none
    leaving := []
    retryCallback := none
    interestList := .empty
    descriptors := [(sockfd_ : Int)]
    batch := []
    errors := []
    errorCallbacks := []
    newConnections := []
    retries := []
    dangling := []
    failures := [] }

/-- `assert(p)`. -/
def check (c : TcpClient) (site : ClientAssertion) (p : Prop) [Decidable p] : TcpClient :=
  { c with failures := if p then c.failures else c.failures ++ [site] }

def setErrorCallback (c : TcpClient) : TcpClient :=
  { c with connector_ := { c.connector_ with errorCallback_ := true } }

/-- An interest operation on the channel of the connector. -/
def interest (c : TcpClient) (op : InterestOp) : TcpClient :=
  let channel_ := c.connector_.channel_
  let c := c.check .connectorChannel (EPollPoller.UpdateAsserts { channel_ with events_ := op.apply channel_.events_ })
  let updated := c.interestList.interest c.connector_.sockfd_ (.connector c.connector_.attempt) channel_ op
  { c with connector_ := { c.connector_ with channel_ := updated.1 }, interestList := updated.2 }

/-- An interest operation on the channel of a connection. -/
def connectionInterest (c : TcpClient) (conn : ClientConn) (op : InterestOp) : ClientConn × TcpClient :=
  let c := c.check .connectionChannel
    (EPollPoller.UpdateAsserts { conn.channel_ with events_ := op.apply conn.channel_.events_ })
  let updated := c.interestList.interest conn.sockfd_ (.connection conn.attempt) conn.channel_ op
  ({ conn with channel_ := updated.1 }, { c with interestList := updated.2 })

/-- `TcpConnection::connectEstablished`. -/
def connectEstablished (c : TcpClient) (conn : ClientConn) : ClientConn × TcpClient :=
  (c.check .connectEstablished (conn.state_ = .kConnecting)).connectionInterest { conn with state_ := .kConnected }
    .enableRead

/-- The assignment of a new connector to `connector_`. It is constructed, with the descriptor that `socket`
returned, before the old one is destroyed, which closes the descriptor of an attempt that did not connect. -/
def replaceConnector (c : TcpClient) (sockfd_ : Nat) : TcpClient :=
  let old := c.connector_
  let c := { c with connector_ := Connector.init sockfd_ (old.attempt + 1)
                    descriptors := c.descriptors ++ [(sockfd_ : Int)] }
  if old.connected_ then c
  else { c with interestList := c.interestList.close old.sockfd_, descriptors := c.descriptors.erase old.sockfd_ }

/-- `TcpConnection::handleClose` up to its callback. -/
def handleClose (c : TcpClient) (conn : ClientConn) : TcpClient :=
  let c := c.check .handleClose (conn.state_ = .kConnected ∨ conn.state_ = .kDisconnecting)
  let (closed, c) := c.connectionInterest { conn with state_ := .kDisconnected } .disableAll
  { c with leaving := c.leaving ++ [closed] }

/-- `TcpClient::closeConnection`. -/
def closeConnection (c : TcpClient) : TcpClient :=
  { c.check .closeConnection (c.connection_.isSome = true) with connection_ := none }

/-- `~TcpConnection`, which closes the descriptor. -/
def destroyConnection (c : TcpClient) (conn : ClientConn) : TcpClient :=
  { c with interestList := c.interestList.close conn.sockfd_, descriptors := c.descriptors.erase conn.sockfd_ }

/-- What `epoll_wait` may report for the descriptor `p.1`. -/
def report (c : TcpClient) (p : Int × Events) : Option (ClientChannel × Events) :=
  (c.interestList p.1).bind fun r => if Reportable (some r.events) p.2 then some (r.channel, p.2) else none

end TcpClient

/-- The timer whose callback the loop thread is executing. -/
def TimerPhase.executing : TimerPhase → Option Nat
  | .calling _ e _ true => some e.second
  | _ => none

/-- A client in its loop. -/
structure ClientWorld where
  loop : TimerWorld
  client : TcpClient

/-- One step. The steps of the loop are those of its timer queue and of its other users; the steps of the client
are `start`, the callback of its timer with what `socket` and `connect` return, a poll with what it reports, the
dispatch of a reported event with the value of `SO_ERROR`, a run of `closeConnection`, and the end of the
connection. -/
inductive ClientLabel where
  | loop (l : TimerLabel)
  | setErrorCallback
  | start (result : ConnectResult) (timer : Nat)
  | retry (sockfd : Nat) (result : ConnectResult)
  | poll (ready : List (Int × Events))
  | event (err : Nat)
  | closeConnection
  | destroyConnection
  deriving DecidableEq, Repr

namespace ClientWorld

def init (time : Timestamp) (sockfd_ : Nat) : ClientWorld :=
  { loop := TimerWorld.init time, client := TcpClient.init sockfd_ }

/-- `cancelTimer` in the loop thread. -/
def cancelTimer (loop : TimerWorld) (timer : Nat) : TimerWorld :=
  { loop with toTimerQueue := loop.cancelTimerInLoop timer, requested := loop.requested ++ [timer] }

def newConnection (w : ClientWorld) (connfd : Int) : ClientWorld :=
  let c := w.client
  let loop := cancelTimer w.loop c.retryTimer_
  let conn : ClientConn := { TcpConnection.init with attempt := c.connector_.attempt, sockfd_ := connfd }
  let (conn, client) := { c with retryTimer_ := nullptr, connected_ := true }.connectEstablished conn
  let record : NewConnection :=
    { attempt := c.connector_.attempt
      timer := c.retryTimer_
      status := w.loop.status c.retryTimer_
      executing := w.loop.phase.executing
      before := c.interestList connfd
      after := client.interestList connfd }
  { loop, client := { client with connection_ := some conn, newConnections := c.newConnections ++ [record] } }

/-- `Connector::handleWrite`, where `getsockopt` has put `err` into `errno`. -/
def handleWrite (w : ClientWorld) (err : Nat) : ClientWorld :=
  let c := (w.client.check .handleWrite (w.client.connector_.started_ = true)).interest .disableAll
  let attempt := c.connector_.attempt
  if err ≠ 0 then
    { w with client :=
        { c with errors := c.errors ++ [attempt]
                 errorCallbacks := if c.connector_.errorCallback_ then c.errorCallbacks ++ [attempt]
                   else c.errorCallbacks } }
  else newConnection { w with client := { c with connector_ := { c.connector_ with connected_ := true } } }
    c.connector_.sockfd_

/-- `Connector::start`. `SO_ERROR` is zero when `connect` has returned at once, whatever it returned. -/
def startConnector (w : ClientWorld) (result : ConnectResult) : ClientWorld :=
  let c := w.client.check .start (w.client.connector_.started_ = false)
  let w : ClientWorld := { w with client := { c with connector_ := { c.connector_ with started_ := true } } }
  if result.inProgress then { w with client := w.client.interest .enableWrite }
  else w.handleWrite 0

/-- `TcpClient::retry`. -/
def retry (w : ClientWorld) (sockfd : Nat) (result : ConnectResult) : Option ClientWorld :=
  let c : TcpClient := { w.client with retries := w.client.retries ++ [w.client.connected_] }
  if c.connected_ then some { w with client := c }
  else if (sockfd : Int) ∈ c.descriptors then none
  else some (startConnector { w with client := c.replaceConnector sockfd } result)

/-- The steps that the loop and its other users make on their own: they do not have the timer of the client, and
the tasks are run when all reported events have been dispatched. -/
def permits (w : ClientWorld) : TimerLabel → Bool
  | .poll => false
  | .swap => w.client.batch.isEmpty
  | .fire =>
    match w.loop.phase with
    | .expiring _ (e :: _) => w.client.retryCallback != some e.second
    | _ => true
  | .cancelTimer timer => w.client.retryCallback != some timer
  | .cancelTimerElsewhere timer => w.client.retryCallback != some timer
  | _ => true

/-- `TcpClient::start`, which is called once. The interval of the timer is three seconds. -/
def start (w : ClientWorld) (result : ConnectResult) (timer : Nat) : Option ClientWorld :=
  let w := w.startConnector result
  (w.loop.step (.addTimer timer (w.loop.time + 3000000000) 3000000000)).map fun loop =>
    { loop, client := { w.client with retryTimer_ := timer, retryCallback := some timer } }

/-- The next reported event. A connector has no callback but `handleWrite`. -/
def dispatch (w : ClientWorld) (err : Nat) : ClientChannel × Events → ClientWorld
  | (.connector attempt, revents) =>
    if attempt = w.client.connector_.attempt then
      if Mask.has revents EPOLLOUT then w.handleWrite err else w
    else { w with client := { w.client with dangling := w.client.dangling ++ [attempt] } }
  | (.connection _, _) => w

/-- What a step does. Every channel has one descriptor, and `epoll_wait` reports a descriptor once. A connection that
the client has let go of can run `handleClose` again, which here is what its callback makes of it. -/
def act (w : ClientWorld) : ClientLabel → Option ClientWorld
  | .loop l => if w.permits l then (w.loop.step l).map fun loop => { w with loop } else none
  | .setErrorCallback => some { w with client := w.client.setErrorCallback }
  | .start result timer =>
    if w.loop.phase.inUserCode ∧ w.client.retryCallback = none then w.start result timer else none
  | .retry sockfd result =>
    match w.loop.phase with
    | .expiring _ (e :: _) =>
      if w.client.retryCallback = some e.second then
        (w.loop.step .fire).bind fun loop =>
          if loop.phase.inUserCode then retry { w with loop } sockfd result else some { w with loop }
      else none
    | _ => none
  | .poll ready =>
    (ready.mapM w.client.report).bind fun batch =>
      if (batch.map Prod.fst).Nodup then
        (w.loop.step .poll).map fun loop => { loop, client := { w.client with batch } }
      else none
  | .event err =>
    match w.loop.phase, w.client.batch with
    | .handling, reported :: rest => some (dispatch { w with client := { w.client with batch := rest } } err reported)
    | _, _ => none
  | .closeConnection =>
    if w.loop.phase = .handling ∨ w.loop.phase = .running then
      match w.client.connection_ with
      | some conn => some { w with client := (w.client.handleClose conn).closeConnection }
      | none => if w.client.leaving = [] then none else some { w with client := w.client.closeConnection }
    else none
  | .destroyConnection =>
    match w.client.leaving with
    | conn :: rest => some { w with client := { w.client.destroyConnection conn with leaving := rest } }
    | [] => none

/-- A run ends when an event is dispatched to a destroyed connector: the code goes on with freed memory. -/
def step (w : ClientWorld) (l : ClientLabel) : Option ClientWorld := if w.client.dangling = [] then w.act l else none

end ClientWorld

end mudong.ev
