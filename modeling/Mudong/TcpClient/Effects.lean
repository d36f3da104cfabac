import Mudong.TcpClient.Moves

namespace mudong.ev

namespace InterestList

variable {κ : Type}

theorem close_empty (fd : Int) : (empty : InterestList κ).close fd = empty := Function.update_eq_self fd empty

theorem close_singleton (fd : Int) (r : Registration κ) : close (Function.update empty fd (some r)) fd = empty := by
  unfold close
  rw [Function.update_idem]
  exact close_empty fd

end InterestList

/-- The channel of a connector that waits for its descriptor to become writable. -/
def Channel.awaiting : Channel := { Channel.init with pooling := true, events_ := EPOLLOUT }

namespace TcpClient

variable {c : TcpClient}

theorem check_of {p : Prop} [Decidable p] (hp : p) (c : TcpClient) (site : ClientAssertion) : c.check site p = c := by
  simp only [check, if_pos hp]

theorem mem_check {site : ClientAssertion} (h : site ∈ c.failures) (site' : ClientAssertion) (p : Prop)
    [Decidable p] : site ∈ (c.check site' p).failures := by
  unfold check
  split
  · exact h
  · exact List.mem_append_left _ h

/-- An assertion is recorded by its own check only. -/
theorem of_mem_check {site s : ClientAssertion} {p : Prop} [Decidable p] (hne : site ≠ s)
    (h : site ∈ (c.check s p).failures) : site ∈ c.failures := by
  simp only [check] at h
  split at h
  · exact h
  · obtain h | h := List.mem_append.mp h
    · exact h
    · exact (hne (List.mem_singleton.mp h)).elim

theorem mem_interest {site : ClientAssertion} (h : site ∈ c.failures) (op : InterestOp) :
    site ∈ (c.interest op).failures := mem_check h _ _

theorem mem_connectionInterest {site : ClientAssertion} (h : site ∈ c.failures) (conn : ClientConn) (op : InterestOp) :
    site ∈ (c.connectionInterest conn op).2.failures := mem_check h _ _

theorem mem_connectEstablished {site : ClientAssertion} (h : site ∈ c.failures) (conn : ClientConn) :
    site ∈ (c.connectEstablished conn).2.failures := mem_connectionInterest (mem_check h _ _) _ _

theorem mem_handleClose {site : ClientAssertion} (h : site ∈ c.failures) (conn : ClientConn) :
    site ∈ (c.handleClose conn).failures := by
  have hmem := mem_connectionInterest (mem_check h .handleClose
    (conn.state_ = .kConnected ∨ conn.state_ = .kDisconnecting)) { conn with state_ := .kDisconnected } .disableAll
  exact hmem

theorem mem_closeConnection {site : ClientAssertion} (h : site ∈ c.failures) : site ∈ c.closeConnection.failures :=
  mem_check h _ _

/-- The connector of an attempt under way adds its descriptor to the list. -/
theorem interest_enableWrite (hchannel : c.connector_.channel_ = Channel.init) (hfd : 0 ≤ c.connector_.sockfd_)
    (hnone : c.interestList c.connector_.sockfd_ = none) :
    c.interest .enableWrite =
      { c with connector_ := { c.connector_ with channel_ := Channel.awaiting }
               interestList := Function.update c.interestList c.connector_.sockfd_
                 (some ⟨EPOLLOUT, .connector c.connector_.attempt⟩) } := by
  have hasserts : EPollPoller.UpdateAsserts
      { c.connector_.channel_ with events_ := InterestOp.enableWrite.apply c.connector_.channel_.events_ } := by
    rw [hchannel]
    decide
  unfold interest
  dsimp only
  rw [check_of hasserts, hchannel]
  exact congrArg (fun list => { c with connector_ := { c.connector_ with channel_ := Channel.awaiting }
                                       interestList := list }) (InterestList.ctl_add hfd hnone _)

/-- `removeChannel` of a registered channel takes the descriptor out of the list. -/
theorem interest_disableAll (hchannel : c.connector_.channel_ = Channel.awaiting) (hfd : 0 ≤ c.connector_.sockfd_)
    {r : Registration ClientChannel} (hsome : c.interestList c.connector_.sockfd_ = some r) :
    c.interest .disableAll =
      { c with connector_ := { c.connector_ with channel_ := Channel.init }
               interestList := c.interestList.close c.connector_.sockfd_ } := by
  have hasserts : EPollPoller.UpdateAsserts
      { c.connector_.channel_ with events_ := InterestOp.disableAll.apply c.connector_.channel_.events_ } := by
    rw [hchannel]
    decide
  unfold interest
  dsimp only
  rw [check_of hasserts, hchannel]
  exact congrArg (fun list => { c with connector_ := { c.connector_ with channel_ := Channel.init }
                                       interestList := list }) (InterestList.ctl_del hfd hsome _)

/-- `removeChannel` of a channel that was never registered fails the assertion of `updateChannel`. -/
theorem interest_disableAll_unregistered (hchannel : c.connector_.channel_ = Channel.init) :
    .connectorChannel ∈ (c.interest .disableAll).failures := by
  have hfails : ¬EPollPoller.UpdateAsserts
      { c.connector_.channel_ with events_ := InterestOp.disableAll.apply c.connector_.channel_.events_ } := by
    rw [hchannel]
    decide
  simp only [interest, check, if_neg hfails]
  exact List.mem_append_right _ (List.mem_singleton_self _)

/-- A new connection adds its descriptor to the list, if the list has no entry for it. -/
theorem connectEstablished_unlisted (c : TcpClient) (conn : ClientConn)
    (hconn : conn.toTcpConnection = TcpConnection.init) (hfd : 0 ≤ conn.sockfd_)
    (hnone : c.interestList conn.sockfd_ = none) :
    (c.connectEstablished conn).2 =
      { c with interestList := Function.update c.interestList conn.sockfd_
                 (some ⟨EPOLLIN ||| EPOLLPRI, .connection conn.attempt⟩) } := by
  have hstate : conn.state_ = .kConnecting := by rw [hconn]; rfl
  have hchannel : conn.channel_ = Channel.init := by rw [hconn]; rfl
  have hasserts : EPollPoller.UpdateAsserts
      { conn.channel_ with events_ := InterestOp.enableRead.apply conn.channel_.events_ } := by
    rw [hchannel]
    decide
  unfold connectEstablished connectionInterest
  dsimp only
  rw [check_of hstate, check_of hasserts, hchannel]
  exact congrArg (fun list => { c with interestList := list }) (InterestList.ctl_add hfd hnone _)

/-- A connection that closes leaves the connector and what is reported alone. -/
theorem close_eq (c : TcpClient) (conn : ClientConn) :
    (c.handleClose conn).closeConnection =
      { c with interestList := (c.handleClose conn).interestList
               leaving := (c.handleClose conn).leaving
               connection_ := none
               failures := (c.handleClose conn).closeConnection.failures } := by
  simp only [closeConnection, handleClose, connectionInterest, check]

/-- A new connector changes what is registered and which descriptors are open. -/
theorem replaceConnector_eq (c : TcpClient) (sockfd : Nat) :
    ∃ interestList descriptors, c.replaceConnector sockfd =
      { c with connector_ := Connector.init sockfd (c.connector_.attempt + 1), interestList, descriptors } := by
  unfold replaceConnector
  dsimp only
  split
  · exact ⟨_, _, rfl⟩
  · exact ⟨_, _, rfl⟩

end TcpClient

namespace ClientWorld

/-- What `newConnection` does with a descriptor that the list has no entry for. -/
theorem newConnection_unlisted {w : ClientWorld} {connfd : Int} (hfd : 0 ≤ connfd)
    (hnone : w.client.interestList connfd = none) :
    ∃ conn, w.newConnection connfd =
      { loop := cancelTimer w.loop w.client.retryTimer_
        client := { w.client with
          retryTimer_ := nullptr
          connected_ := true
          interestList := Function.update w.client.interestList connfd
            (some ⟨EPOLLIN ||| EPOLLPRI, .connection w.client.connector_.attempt⟩)
          connection_ := some conn
          newConnections := w.client.newConnections ++
            [{ attempt := w.client.connector_.attempt
               timer := w.client.retryTimer_
               status := w.loop.status w.client.retryTimer_
               executing := w.loop.phase.executing
               before := none
               after := some ⟨EPOLLIN ||| EPOLLPRI, .connection w.client.connector_.attempt⟩ }] } } := by
  let conn : ClientConn :=
    { TcpConnection.init with attempt := w.client.connector_.attempt, sockfd_ := connfd }
  let client : TcpClient := { w.client with retryTimer_ := nullptr, connected_ := true }
  have hestablished := client.connectEstablished_unlisted conn rfl hfd hnone
  have hafter : (client.connectEstablished conn).2.interestList connfd =
      some ⟨EPOLLIN ||| EPOLLPRI, .connection w.client.connector_.attempt⟩ := by
    rw [hestablished]
    exact Function.update_self ..
  refine ⟨(client.connectEstablished conn).1, ?_⟩
  change ClientWorld.mk _
    { (client.connectEstablished conn).2 with
      connection_ := some (client.connectEstablished conn).1
      newConnections := w.client.newConnections ++
        [⟨_, _, _, _, w.client.interestList connfd, (client.connectEstablished conn).2.interestList connfd⟩] } = _
  rw [hnone, hafter, hestablished]

theorem mem_newConnection {w : ClientWorld} {site : ClientAssertion} (h : site ∈ w.client.failures) (connfd : Int) :
    site ∈ (w.newConnection connfd).client.failures := by
  have hmem := TcpClient.mem_connectEstablished (c := { w.client with retryTimer_ := nullptr, connected_ := true }) h
    { TcpConnection.init with attempt := w.client.connector_.attempt, sockfd_ := connfd }
  exact hmem

theorem mem_handleWrite {w : ClientWorld} {site : ClientAssertion} (h : site ∈ w.client.failures) (err : Nat) :
    site ∈ (w.handleWrite err).client.failures := by
  have hmem := TcpClient.mem_interest (TcpClient.mem_check h .handleWrite
    (w.client.connector_.started_ = true)) .disableAll
  unfold handleWrite
  dsimp only
  split
  · exact hmem
  · exact mem_newConnection hmem _

theorem mem_startConnector {w : ClientWorld} {site : ClientAssertion} (h : site ∈ w.client.failures)
    (result : ConnectResult) : site ∈ (w.startConnector result).client.failures := by
  have hmem := TcpClient.mem_check h .start (w.client.connector_.started_ = false)
  unfold startConnector
  dsimp only
  split
  · exact TcpClient.mem_interest hmem _
  · exact mem_handleWrite hmem _

theorem renewed_eq (w : ClientWorld) (loop : TimerWorld) (sockfd : Nat) :
    ∃ interestList descriptors, w.renewed loop sockfd =
      { loop
        client := { w.client with
          connector_ := Connector.init sockfd (w.client.connector_.attempt + 1)
          retries := w.client.retries ++ [w.client.connected_]
          interestList
          descriptors } } := by
  obtain ⟨interestList, descriptors, heq⟩ := TcpClient.replaceConnector_eq
    { w.client with retries := w.client.retries ++ [w.client.connected_] } sockfd
  exact ⟨interestList, descriptors, congrArg (ClientWorld.mk loop) heq⟩

/-- Assertions that have failed stay on record. -/
theorem step_failures {w w' : ClientWorld} {l : ClientLabel} (hstep : w.step l = some w') {site : ClientAssertion}
    (h : site ∈ w.client.failures) : site ∈ w'.client.failures := by
  cases step_moves hstep with
  | loop => exact h
  | setErrorCallback => exact h
  | @start result timer loop hnone huser hloop => exact mem_startConnector h result
  | skips => exact h
  | late => exact h
  | @retry sockfd result loop =>
    obtain ⟨interestList, descriptors, heq⟩ := w.renewed_eq loop sockfd
    exact mem_startConnector (by rw [heq]; exact h) result
  | poll => exact h
  | @handles err revents rest => exact mem_handleWrite (w := w.taken rest) h err
  | ignores => exact h
  | dangles => exact h
  | closes => exact TcpClient.mem_closeConnection (TcpClient.mem_handleClose h _)
  | closesAgain => exact TcpClient.mem_closeConnection h
  | destroys => exact h

end ClientWorld

end mudong.ev
