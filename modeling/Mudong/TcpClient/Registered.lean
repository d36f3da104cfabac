import Mudong.TcpClient.Handover

namespace mudong.ev

/-- The entries of connectors are those of the current one, for its own descriptor; a connector that has connected
asks for no events. -/
def Connector.Listed (connector : Connector) (list : InterestList ClientChannel) : Prop :=
  ∀ fd r attempt, list fd = some r → r.channel = .connector attempt →
    attempt = connector.attempt ∧ fd = connector.sockfd_ ∧ connector.channel_.pooling = true ∧
      (connector.connected_ = true → r.events = 0)

namespace InterestList

/-- No connector is registered. -/
def Connectorless (list : InterestList ClientChannel) : Prop :=
  ∀ fd r attempt, list fd = some r → r.channel ≠ .connector attempt

variable {list : InterestList ClientChannel} {connector : Connector}

/-- Entries may be taken out. -/
theorem listed_close (h : connector.Listed list) (fd : Int) : connector.Listed (list.close fd) := by
  intro fd' r attempt hr
  exact h fd' r attempt (close_eq_some.mp hr).2

/-- Closing its descriptor takes out what the connector has registered. -/
theorem connectorless_close (h : connector.Listed list) : (list.close connector.sockfd_).Connectorless := by
  intro fd r attempt hr hname
  obtain ⟨hfd, hold⟩ := close_eq_some.mp hr
  exact hfd (h fd r attempt hold hname).2.1

theorem Connectorless.close (h : list.Connectorless) (fd : Int) : (list.close fd).Connectorless := by
  intro fd' r attempt hr
  exact h fd' r attempt (close_eq_some.mp hr).2

theorem Connectorless.listed (h : list.Connectorless) : connector.Listed list := by
  intro fd r attempt hr hname
  exact (h fd r attempt hr hname).elim

/-- Every entry of a connector after an operation on the channel of a connection was there before. -/
theorem interest_connection {fd fd' : Int} {attempt other : Nat} {channel_ : Channel} {op : InterestOp}
    {r : Registration ClientChannel} (hr : (list.interest fd (.connection attempt) channel_ op).2 fd' = some r)
    (hname : r.channel = .connector other) : list fd' = some r := by
  obtain hold | rfl := ctl_eq_some hr
  · exact hold
  · cases hname

end InterestList

namespace TcpClient

/-- What the interest list and the flags say about the connector of a client. -/
structure Registered (c : TcpClient) : Prop where
  sockfd_ : 0 ≤ c.connector_.sockfd_
  listed : c.connector_.Listed c.interestList
  owned : c.connector_.connected_ = true → c.connected_ = true

variable {c : TcpClient}

/-- The new interest of a connector that has not connected. -/
theorem listed_enableWrite (h : c.connector_.Listed c.interestList) (hconnected : c.connector_.connected_ = false) :
    (c.interest .enableWrite).connector_.Listed (c.interest .enableWrite).interestList := by
  have hevents : InterestOp.enableWrite.apply c.connector_.channel_.events_ ≠ 0 := by
    have hout := InterestOp.has_out_enableWrite c.connector_.channel_.events_
    intro hzero
    rw [hzero, Mask.has_zero] at hout
    cases hout
  have hpooling : (c.interest .enableWrite).connector_.channel_.pooling = true :=
    EPollPoller.updateChannel_pooling (beq_eq_false_iff_ne.mpr hevents)
  intro fd r attempt hr hname
  by_cases hfd : fd = c.connector_.sockfd_
  · refine ⟨?_, hfd, hpooling, fun h => ?_⟩
    · obtain hold | rfl := InterestList.ctl_eq_some hr
      · exact (h fd r attempt hold hname).1
      · exact (ClientChannel.connector.inj hname).symm
    · cases hconnected.symm.trans h
  · have hold : c.interestList fd = some r := (InterestList.ctl_of_ne _ hfd _ _).symm.trans hr
    exact (hfd (h fd r attempt hold hname).2.1).elim

/-- `removeChannel` takes out what the connector has registered. If there is nothing, it registers the channel
without any events. -/
theorem listed_disableAll (hsockfd : 0 ≤ c.connector_.sockfd_) (h : c.connector_.Listed c.interestList)
    (connected_ : Bool) :
    { (c.interest .disableAll).connector_ with connected_ }.Listed (c.interest .disableAll).interestList := by
  intro fd r attempt hr hname
  cases hpooling : c.connector_.channel_.pooling with
  | true =>
    have hupdate : EPollPoller.updateChannel
        { c.connector_.channel_ with events_ := InterestOp.disableAll.apply c.connector_.channel_.events_ } =
        ({ c.connector_.channel_ with events_ := 0, pooling := false }, .EPOLL_CTL_DEL) := by
      simp [EPollPoller.updateChannel, Channel.isNoneEvents, hpooling, InterestOp.apply]
    have hlist : (c.interest .disableAll).interestList =
        c.interestList.ctl .EPOLL_CTL_DEL c.connector_.sockfd_ ⟨0, .connector c.connector_.attempt⟩ := by
      simp [interest, InterestList.interest, hupdate, check]
    rw [hlist] at hr
    by_cases hfd : fd = c.connector_.sockfd_
    · subst hfd
      cases hold : c.interestList c.connector_.sockfd_ <;>
        simp [InterestList.ctl, not_lt.mpr hsockfd, hold] at hr
    · rw [InterestList.ctl_of_ne _ hfd] at hr
      exact (hfd (h fd r attempt hr hname).2.1).elim
  | false =>
    have hupdate : EPollPoller.updateChannel
        { c.connector_.channel_ with events_ := InterestOp.disableAll.apply c.connector_.channel_.events_ } =
        ({ c.connector_.channel_ with events_ := 0, pooling := true }, .EPOLL_CTL_ADD) := by
      simp [EPollPoller.updateChannel, hpooling, InterestOp.apply]
    have hnone {fd : Int} (hold : c.interestList fd = some r) : False := by
      cases hpooling.symm.trans (h fd r attempt hold hname).2.2.1
    by_cases hfd : fd = c.connector_.sockfd_
    · obtain hold | hnew := InterestList.ctl_eq_some hr
      · exact (hnone hold).elim
      · rw [hupdate] at hnew
        subst hnew
        refine ⟨(ClientChannel.connector.inj hname).symm, hfd, ?_, fun _ => rfl⟩
        simp [interest, InterestList.interest, hupdate]
    · exact (hnone ((InterestList.ctl_of_ne _ hfd _ _).symm.trans hr)).elim

end TcpClient

namespace ClientWorld

variable {w w' : ClientWorld}

/-- `newConnection` registers the connection and is what sets `connected_`. -/
theorem newConnection_registered (hsockfd : 0 ≤ w.client.connector_.sockfd_)
    (hlisted : w.client.connector_.Listed w.client.interestList) (connfd : Int) :
    (w.newConnection connfd).client.Registered := by
  refine ⟨hsockfd, ?_, fun _ => rfl⟩
  intro fd r attempt hr hname
  exact hlisted fd r attempt (InterestList.interest_connection hr hname) hname

theorem handleWrite_registered (h : w.client.Registered) (err : Nat) : (w.handleWrite err).client.Registered := by
  let c := w.client.check .handleWrite (w.client.connector_.started_ = true)
  have hlisted := TcpClient.listed_disableAll (c := c) h.sockfd_ h.listed
  unfold handleWrite
  dsimp only
  split
  · exact ⟨h.sockfd_, hlisted w.client.connector_.connected_, h.owned⟩
  · refine newConnection_registered ?_ ?_ _
    · exact h.sockfd_
    · exact hlisted true

theorem startConnector_registered (h : w.client.Registered) (hconnected : w.client.connector_.connected_ = false)
    (result : ConnectResult) : (w.startConnector result).client.Registered := by
  let c : TcpClient := { w.client.check .start (w.client.connector_.started_ = false) with
    connector_ := { w.client.connector_ with started_ := true } }
  have hstarted : c.Registered := ⟨h.sockfd_, h.listed, h.owned⟩
  unfold startConnector
  dsimp only
  split
  · exact ⟨h.sockfd_, TcpClient.listed_enableWrite (c := c) hstarted.listed hconnected, h.owned⟩
  · exact handleWrite_registered (w := { w with client := c }) hstarted _

/-- `retry` leaves nothing of the old connector in the list. -/
theorem renewed_registered (h : w.client.Registered) (hconnected : w.client.connected_ = false) (loop : TimerWorld)
    (sockfd : Nat) : (w.renewed loop sockfd).client.Registered := by
  have hold : w.client.connector_.connected_ = false := by
    cases hc : w.client.connector_.connected_ with
    | false => rfl
    | true => cases hconnected.symm.trans (h.owned hc)
  unfold renewed TcpClient.replaceConnector
  dsimp only
  rw [if_neg (by simp [hold])]
  exact ⟨Int.natCast_nonneg sockfd, (InterestList.connectorless_close h.listed).listed, fun hc => by cases hc⟩

/-- What the connector and the connection of a client do not change. -/
def reported (c : TcpClient) : List (ClientChannel × Events) × Option Nat × List Nat × Nat :=
  (c.batch, c.retryCallback, c.dangling, c.connector_.attempt)

theorem handleWrite_reported (w : ClientWorld) (err : Nat) :
    reported (w.handleWrite err).client = reported w.client := by
  unfold handleWrite
  dsimp only
  split
  · rfl
  · rfl

theorem startConnector_reported (w : ClientWorld) (result : ConnectResult) :
    reported (w.startConnector result).client = reported w.client := by
  unfold startConnector
  dsimp only
  split
  · rfl
  · exact handleWrite_reported _ _

/-- The loop is as before when there is no new connection. -/
theorem handleWrite_unconnected {err : Nat} (h : (w.handleWrite err).client.connected_ = false) :
    (w.handleWrite err).loop = w.loop ∧ w.client.connected_ = false := by
  unfold handleWrite at h ⊢
  dsimp only at h ⊢
  split at h
  · rename_i herr
    rw [if_pos herr]
    exact ⟨rfl, h⟩
  · cases h

theorem startConnector_unconnected {result : ConnectResult} (h : (w.startConnector result).client.connected_ = false) :
    (w.startConnector result).loop = w.loop ∧ w.client.connected_ = false := by
  unfold startConnector at h ⊢
  dsimp only at h ⊢
  split at h
  · rename_i hprogress
    rw [if_pos hprogress]
    exact ⟨rfl, h⟩
  · rename_i hprogress
    rw [if_neg hprogress]
    exact handleWrite_unconnected h

/-- None of the events is for a connector. -/
def Unreported (batch : List (ClientChannel × Events)) : Prop := ∀ p ∈ batch, ∀ attempt, p.1 ≠ .connector attempt

theorem unreported_iff (batch : List (ClientChannel × Events)) :
    (∀ p ∈ batch, p.1.isConnection = true) ↔ Unreported batch := by
  refine forall₂_congr fun p _ => ?_
  cases p.1 <;> simp [ClientChannel.isConnection]

instance (batch : List (ClientChannel × Events)) : Decidable (Unreported batch) :=
  decidable_of_iff _ (unreported_iff batch)

/-- The connector is registered as it should be, and one that has not been started has left no trace. -/
structure Wired (w : ClientWorld) : Prop where
  registered : w.client.Registered
  unstarted : w.client.retryCallback = none →
    w.client.connector_.connected_ = false ∧ w.client.interestList.Connectorless ∧ Unreported w.client.batch

/-- The loop goes on, and the client takes note of it. -/
theorem Wired.of_loop (hinv : w.Wired) (loop : TimerWorld) (retries : List Bool) :
    (ClientWorld.mk loop { w.client with retries }).Wired :=
  ⟨⟨hinv.registered.sockfd_, hinv.registered.listed, hinv.registered.owned⟩, hinv.unstarted⟩

/-- Events may be taken from the batch. -/
theorem Wired.of_batch (hinv : w.Wired) {loop : TimerWorld} {batch : List (ClientChannel × Events)}
    (hbatch : w.client.interestList.Connectorless → Unreported w.client.batch → Unreported batch)
    (dangling : List Nat) :
    (ClientWorld.mk loop { w.client with batch, dangling }).Wired := by
  refine ⟨⟨hinv.registered.sockfd_, hinv.registered.listed, hinv.registered.owned⟩, fun hnone => ?_⟩
  obtain ⟨hconnected, hlist, hunreported⟩ := hinv.unstarted hnone
  exact ⟨hconnected, hlist, hbatch hlist hunreported⟩

/-- The connection of the client comes or goes. -/
theorem Wired.of_list (hinv : w.Wired) {c' : TcpClient} (hlisted : c'.connector_.Listed c'.interestList)
    (hlist : w.client.interestList.Connectorless → c'.interestList.Connectorless)
    (hsame : (reported c', c'.connected_, c'.connector_.connected_, c'.connector_.sockfd_) =
      (reported w.client, w.client.connected_, w.client.connector_.connected_, w.client.connector_.sockfd_)) :
    (ClientWorld.mk w.loop c').Wired := by
  simp only [reported, Prod.mk.injEq] at hsame
  obtain ⟨⟨hbatch, hcallback, _, _⟩, hconnected, hconnector, hsockfd⟩ := hsame
  refine ⟨⟨?_, hlisted, ?_⟩, ?_⟩
  · rw [hsockfd]
    exact hinv.registered.sockfd_
  · rw [hconnector, hconnected]
    exact hinv.registered.owned
  · simp only [hcallback, hconnector, hbatch]
    intro hnone
    obtain ⟨hfalse, hless, hunreported⟩ := hinv.unstarted hnone
    exact ⟨hfalse, hlist hless, hunreported⟩

/-- A client that has been started. -/
theorem wired_started (hregistered : w.client.Registered) (hcallback : w.client.retryCallback ≠ none) : w.Wired :=
  ⟨hregistered, fun hnone => (hcallback hnone).elim⟩

theorem Wired.step {l : ClientLabel} (hinv : w.Wired) (hstep : w.step l = some w') : w'.Wired := by
  have hregistered := hinv.registered
  cases step_moves hstep with
  | @loop l loop hpermits hloop => exact hinv.of_loop loop w.client.retries
  | setErrorCallback => exact hinv.of_list hregistered.listed id rfl
  | @start result timer loop hnone huser hloop =>
    have hstarted := startConnector_registered hregistered (hinv.unstarted hnone).1 result
    exact wired_started ⟨hstarted.sockfd_, hstarted.listed, hstarted.owned⟩ (by simp)
  | @skips sockfd result loop => exact hinv.of_loop loop w.client.retries
  | @late sockfd result loop => exact hinv.of_loop loop _
  | @retry sockfd result loop now e expired hphase hcallback hcanceled hconnected hfresh hloop hcalling =>
    have hsame := startConnector_reported (w.renewed loop sockfd) result
    have hrenewed := renewed_registered hregistered hconnected loop sockfd
    obtain ⟨interestList, descriptors, heq⟩ := w.renewed_eq loop sockfd
    simp only [reported, heq, Prod.mk.injEq] at hsame
    rw [heq] at hrenewed ⊢
    refine wired_started (startConnector_registered hrenewed rfl result) ?_
    rw [hsame.2.1, hcallback]
    simp
  | @poll ready batch loop hbatch hnodup hloop =>
    refine hinv.of_batch (fun hless _ p hp attempt hname => ?_) w.client.dangling
    obtain ⟨fd, r, hr, hchannel, _⟩ := TcpClient.report_listed hbatch p hp
    exact hless fd r attempt hr (hchannel.trans hname)
  | @handles err revents rest hphase hbatch hout =>
    have hsame := handleWrite_reported (w.taken rest) err
    simp only [reported, Prod.mk.injEq] at hsame
    refine wired_started (handleWrite_registered (w := w.taken rest) ?_ _) ?_
    · exact ⟨hregistered.sockfd_, hregistered.listed, hregistered.owned⟩
    · rw [hsame.2.1]
      intro hnone
      exact (hinv.unstarted hnone).2.2 _ (by rw [hbatch]; exact List.mem_cons_self) _ rfl
  | ignores hbatch =>
    refine hinv.of_batch (fun _ hunreported p hp => hunreported p ?_) w.client.dangling
    rw [hbatch]
    exact List.mem_cons_of_mem _ hp
  | dangles hbatch =>
    refine hinv.of_batch (fun _ hunreported p hp => hunreported p ?_) _
    rw [hbatch]
    exact List.mem_cons_of_mem _ hp
  | closes =>
    rw [TcpClient.close_eq]
    refine hinv.of_list ?_ ?_ rfl
    · intro fd r attempt hr hname
      exact hregistered.listed fd r attempt (InterestList.interest_connection hr hname) hname
    · intro hless fd r attempt hr hname
      exact hless fd r attempt (InterestList.interest_connection hr hname) hname
  | closesAgain => exact hinv.of_list hregistered.listed id rfl
  | destroys => exact hinv.of_list (InterestList.listed_close hregistered.listed _) (fun h => h.close _) rfl

theorem init_wired (time : Timestamp) (sockfd_ : Nat) : (init time sockfd_).Wired := by
  have hlist : (init time sockfd_).client.interestList.Connectorless := fun fd r attempt hr => by cases hr
  refine ⟨⟨Int.natCast_nonneg sockfd_, hlist.listed, fun hconnected => ?_⟩, fun _ => ⟨rfl, hlist, fun p hp => ?_⟩⟩
  · cases hconnected
  · cases hp

end ClientWorld

end mudong.ev
