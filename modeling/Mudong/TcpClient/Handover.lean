import Mudong.Lib.Run
import Mudong.TcpClient.Effects

namespace mudong.ev

namespace TcpClient

/-- The assertion of `updateChannel` has held for every connector, and each connection was given a descriptor that
the interest list had no entry for and got its own entry. -/
structure HandsOver (c : TcpClient) : Prop where
  asserts : .connectorChannel ∉ c.failures
  unshared : ∀ n ∈ c.newConnections,
    n.before = none ∧ n.after = some ⟨EPOLLIN ||| EPOLLPRI, .connection n.attempt⟩

/-- The client has had no connection yet. -/
structure Unconnected (c : TcpClient) : Prop where
  connected_ : c.connected_ = false
  connection_ : c.connection_ = none
  leaving : c.leaving = []
  connector_ : c.connector_.connected_ = false

/-- No attempt is under way, and nothing is registered. -/
structure Idle (c : TcpClient) : Prop extends Unconnected c where
  channel_ : c.connector_.channel_ = Channel.init
  unlisted : c.interestList = .empty

/-- An attempt is under way, and its connector alone is registered. -/
structure Pending (c : TcpClient) : Prop extends Unconnected c where
  channel_ : c.connector_.channel_ = Channel.awaiting
  listed : c.interestList = Function.update InterestList.empty c.connector_.sockfd_
    (some ⟨EPOLLOUT, .connector c.connector_.attempt⟩)

/-- The client has been connected, and no connector is registered. -/
structure Established (c : TcpClient) : Prop where
  connected_ : c.connected_ = true
  listed : ∀ fd r, c.interestList fd = some r → ∃ attempt, r.channel = .connection attempt

/-- What the stage of a client depends on. -/
def registrations (c : TcpClient) :
    (Bool × Option ClientConn × List ClientConn) × (Bool × Channel × Int × Nat) × InterestList ClientChannel :=
  ((c.connected_, c.connection_, c.leaving),
    (c.connector_.connected_, c.connector_.channel_, c.connector_.sockfd_, c.connector_.attempt), c.interestList)

/-- The invariant of the handover: an event that is still to be dispatched to the connector finds its attempt under
way. -/
structure Handover (c : TcpClient) : Prop where
  stage : c.Idle ∨ c.Pending ∨ c.Established
  sockfd_ : 0 ≤ c.connector_.sockfd_
  unstarted : c.retryCallback = none → c.Idle
  nodup : (c.batch.map Prod.fst).Nodup
  known : ∀ p ∈ c.batch, ∀ attempt, p.1 = .connector attempt → attempt ≤ c.connector_.attempt
  current : ∀ p ∈ c.batch, p.1 = .connector c.connector_.attempt → c.Pending
  handsOver : c.HandsOver

variable {c c' : TcpClient}

theorem Idle.of_same (h : c.Idle) (hsame : c'.registrations = c.registrations) : c'.Idle := by
  simp only [registrations, Prod.mk.injEq] at hsame
  obtain ⟨⟨hconnected, hconnection, hleaving⟩, ⟨hconnector, hchannel, _, _⟩, hlist⟩ := hsame
  exact ⟨⟨hconnected.trans h.connected_, hconnection.trans h.connection_, hleaving.trans h.leaving,
    hconnector.trans h.connector_⟩, hchannel.trans h.channel_, hlist.trans h.unlisted⟩

theorem Pending.of_same (h : c.Pending) (hsame : c'.registrations = c.registrations) : c'.Pending := by
  simp only [registrations, Prod.mk.injEq] at hsame
  obtain ⟨⟨hconnected, hconnection, hleaving⟩, ⟨hconnector, hchannel, hsockfd, hattempt⟩, hlist⟩ := hsame
  refine ⟨⟨hconnected.trans h.connected_, hconnection.trans h.connection_, hleaving.trans h.leaving,
    hconnector.trans h.connector_⟩, hchannel.trans h.channel_, ?_⟩
  rw [hlist, hsockfd, hattempt]
  exact h.listed

theorem Established.of_same (h : c.Established) (hsame : c'.registrations = c.registrations) : c'.Established := by
  simp only [registrations, Prod.mk.injEq] at hsame
  obtain ⟨⟨hconnected, _, _⟩, _, hlist⟩ := hsame
  refine ⟨hconnected.trans h.connected_, ?_⟩
  rw [hlist]
  exact h.listed

theorem Handover.stage_of_same (hinv : c.Handover) (hsame : c'.registrations = c.registrations) :
    c'.Idle ∨ c'.Pending ∨ c'.Established := by
  obtain hidle | hpending | hestablished := hinv.stage
  · exact .inl (hidle.of_same hsame)
  · exact .inr (.inl (hpending.of_same hsame))
  · exact .inr (.inr (hestablished.of_same hsame))

/-- The rest of the client may change, and events may be taken from the batch. -/
theorem Handover.of_same (hinv : c.Handover) (hsame : c'.registrations = c.registrations)
    (hcallback : c'.retryCallback = none → c.retryCallback = none) (hbatch : c'.batch.Sublist c.batch)
    (hhandsOver : c'.HandsOver) : c'.Handover := by
  have hconnector := hsame
  simp only [registrations, Prod.mk.injEq] at hconnector
  obtain ⟨_, ⟨_, _, hsockfd, hattempt⟩, _⟩ := hconnector
  refine ⟨hinv.stage_of_same hsame, ?_, fun hnone => (hinv.unstarted (hcallback hnone)).of_same hsame, ?_, ?_, ?_,
    hhandsOver⟩
  · rw [hsockfd]
    exact hinv.sockfd_
  · exact hinv.nodup.sublist (hbatch.map _)
  · intro p hp attempt hname
    rw [hattempt]
    exact hinv.known p (hbatch.subset hp) attempt hname
  · intro p hp hname
    rw [hattempt] at hname
    exact (hinv.current p (hbatch.subset hp) hname).of_same hsame

/-- A client of a new stage, when no event is to be dispatched to its connector. -/
theorem Handover.next (hinv : c.Handover) (hstage : c'.Idle ∨ c'.Pending ∨ c'.Established)
    (hsockfd : 0 ≤ c'.connector_.sockfd_) (hcallback : c'.retryCallback ≠ none) (hbatch : c'.batch = c.batch)
    (hattempt : c.connector_.attempt ≤ c'.connector_.attempt)
    (hnone : ∀ p ∈ c.batch, p.1 ≠ .connector c'.connector_.attempt) (hhandsOver : c'.HandsOver) : c'.Handover := by
  refine ⟨hstage, hsockfd, fun h => (hcallback h).elim, by rw [hbatch]; exact hinv.nodup, ?_, ?_, hhandsOver⟩
  · intro p hp attempt hname
    rw [hbatch] at hp
    exact (hinv.known p hp attempt hname).trans hattempt
  · intro p hp hname
    rw [hbatch] at hp
    exact (hnone p hp hname).elim

theorem Pending.not_idle (hpending : c.Pending) : ¬c.Idle := by
  intro hidle
  have hchannel := hpending.channel_
  rw [hidle.channel_] at hchannel
  cases hchannel

/-- No event is dispatched to an idle connector. -/
theorem Handover.idle_batch (hinv : c.Handover) (hidle : c.Idle) :
    ∀ p ∈ c.batch, p.1 ≠ .connector c.connector_.attempt := by
  intro p hp hname
  exact (hinv.current p hp hname).not_idle hidle

/-- A client without a connection has no attempt under way or one. -/
theorem Handover.unconnected (hinv : c.Handover) (hconnected : c.connected_ = false) : c.Idle ∨ c.Pending := by
  obtain hidle | hpending | hestablished := hinv.stage
  · exact .inl hidle
  · exact .inr hpending
  · rw [hestablished.connected_] at hconnected
    cases hconnected

/-- Once there has been a connection, there is nothing to be dispatched to the connector. -/
theorem Handover.connected (hinv : c.Handover) (hconnected : ¬c.Unconnected) :
    c.Established ∧ c.retryCallback ≠ none ∧ ∀ p ∈ c.batch, p.1 ≠ .connector c.connector_.attempt := by
  refine ⟨?_, fun hnone => hconnected (hinv.unstarted hnone).toUnconnected, fun p hp hname => ?_⟩
  · obtain hidle | hpending | hestablished := hinv.stage
    · exact (hconnected hidle.toUnconnected).elim
    · exact (hconnected hpending.toUnconnected).elim
    · exact hestablished
  · exact hconnected (hinv.current p hp hname).toUnconnected

/-- Destroying the connector of an attempt leaves nothing registered. -/
theorem replaceConnector_idle (hunconnected : c.Idle ∨ c.Pending) (sockfd : Nat) :
    (c.replaceConnector sockfd).Idle := by
  unfold replaceConnector
  dsimp only
  obtain hidle | hpending := hunconnected
  · rw [if_neg (by simp [hidle.connector_])]
    refine ⟨⟨hidle.connected_, hidle.connection_, hidle.leaving, rfl⟩, rfl, ?_⟩
    dsimp only
    rw [hidle.unlisted, InterestList.close_empty]
  · rw [if_neg (by simp [hpending.connector_])]
    refine ⟨⟨hpending.connected_, hpending.connection_, hpending.leaving, rfl⟩, rfl, ?_⟩
    dsimp only
    rw [hpending.listed, InterestList.close_singleton]

/-- No event that has been reported is for the new connector. -/
theorem Handover.replaceConnector (hinv : c.Handover) (hconnected : c.connected_ = false)
    (hcallback : c.retryCallback ≠ none) (sockfd : Nat) : (c.replaceConnector sockfd).Handover := by
  have hidle := replaceConnector_idle (hinv.unconnected hconnected) sockfd
  obtain ⟨interestList, descriptors, heq⟩ := c.replaceConnector_eq sockfd
  rw [heq] at hidle ⊢
  refine hinv.next (.inl hidle) (Int.natCast_nonneg sockfd) hcallback rfl (Nat.le_succ _) (fun p hp hname => ?_)
    ⟨hinv.handsOver.asserts, hinv.handsOver.unshared⟩
  exact absurd (hinv.known p hp _ hname) (Nat.not_succ_le_self _)

theorem HandsOver.check (h : c.HandsOver) (site : ClientAssertion) (hne : site ≠ .connectorChannel) (p : Prop)
    [Decidable p] : (c.check site p).HandsOver :=
  ⟨fun hmem => h.asserts (of_mem_check hne.symm hmem), h.unshared⟩

/-- What is reported is in the list, and its events are among those that the entry asks for. -/
theorem report_listed {ready : List (Int × Events)} {batch : List (ClientChannel × Events)}
    (hbatch : ready.mapM c.report = some batch) :
    ∀ p ∈ batch, ∃ fd r, c.interestList fd = some r ∧ r.channel = p.1 ∧ Reportable (some r.events) p.2 := by
  induction ready generalizing batch with
  | nil =>
    cases hbatch
    simp
  | cons q ready ih =>
    simp only [List.mapM_cons, Option.bind_eq_bind, Option.bind_eq_some_iff, Option.pure_def,
      Option.some.injEq] at hbatch
    obtain ⟨reported, hreport, rest, hrest, rfl⟩ := hbatch
    intro p hp
    obtain rfl | hp := List.mem_cons.mp hp
    · simp only [report, Option.bind_eq_some_iff, Option.ite_none_right_eq_some, Option.some.injEq] at hreport
      obtain ⟨r, hr, hreportable, rfl⟩ := hreport
      exact ⟨q.1, r, hr, rfl, hreportable⟩
    · exact ih hrest p hp

/-- An entry of a connector is that of the attempt under way. -/
theorem Handover.listed_connector (hinv : c.Handover) {fd : Int} {r : Registration ClientChannel} {attempt : Nat}
    (hr : c.interestList fd = some r) (hname : r.channel = .connector attempt) :
    attempt = c.connector_.attempt ∧ c.Pending := by
  obtain hidle | hpending | hestablished := hinv.stage
  · rw [hidle.unlisted] at hr
    cases hr
  · rw [hpending.listed] at hr
    by_cases hfd : fd = c.connector_.sockfd_
    · subst hfd
      simp only [Function.update_self, Option.some.injEq] at hr
      rw [← hr] at hname
      exact ⟨(ClientChannel.connector.inj hname).symm, hpending⟩
    · simp [Function.update_of_ne hfd, InterestList.empty] at hr
  · obtain ⟨other, hother⟩ := hestablished.listed fd r hr
    rw [hother] at hname
    cases hname

/-- A poll reports to the connector of the attempt under way and to no other. -/
theorem Handover.poll (hinv : c.Handover) {ready : List (Int × Events)} {batch : List (ClientChannel × Events)}
    (hbatch : ready.mapM c.report = some batch) (hnodup : (batch.map Prod.fst).Nodup) :
    ({ c with batch } : TcpClient).Handover := by
  have hconnector : ∀ p ∈ batch, ∀ attempt, p.1 = .connector attempt →
      attempt = c.connector_.attempt ∧ c.Pending := by
    intro p hp attempt hname
    obtain ⟨fd, r, hr, hchannel, _⟩ := report_listed hbatch p hp
    exact hinv.listed_connector hr (hchannel.trans hname)
  refine ⟨hinv.stage_of_same rfl, hinv.sockfd_, ?_, hnodup, ?_, ?_,
    ⟨hinv.handsOver.asserts, hinv.handsOver.unshared⟩⟩
  · exact fun hnone => (hinv.unstarted hnone).of_same rfl
  · exact fun p hp attempt hname => (hconnector p hp attempt hname).1.le
  · exact fun p hp hname => (hconnector p hp _ hname).2.of_same rfl

/-- The operations of a connection register connections. -/
theorem Established.connectionInterest (h : c.Established) (conn : ClientConn) (op : InterestOp) :
    (c.connectionInterest conn op).2.Established := by
  refine ⟨h.connected_, fun fd r hr => ?_⟩
  obtain hr | rfl := InterestList.ctl_eq_some hr
  · exact h.listed fd r hr
  · exact ⟨_, rfl⟩

end TcpClient

namespace ClientWorld

variable {w w' : ClientWorld}

/-- An attempt whose result comes later registers its connector. -/
theorem startConnector_inProgress (hidle : w.client.Idle) (hsockfd : 0 ≤ w.client.connector_.sockfd_)
    {result : ConnectResult} (hprogress : result.inProgress = true) :
    w.startConnector result =
      { w with client := { w.client.check .start (w.client.connector_.started_ = false) with
          connector_ := { w.client.connector_ with started_ := true, channel_ := Channel.awaiting }
          interestList := Function.update InterestList.empty w.client.connector_.sockfd_
            (some ⟨EPOLLOUT, .connector w.client.connector_.attempt⟩) } } := by
  let client : TcpClient := { w.client.check .start (w.client.connector_.started_ = false) with
    connector_ := { w.client.connector_ with started_ := true } }
  have hnone : client.interestList client.connector_.sockfd_ = none := congrFun hidle.unlisted _
  unfold startConnector
  dsimp only
  rw [if_pos hprogress]
  change ClientWorld.mk _ (client.interest .enableWrite) = _
  rw [client.interest_enableWrite hidle.channel_ hsockfd hnone, ← hidle.unlisted]
  rfl

/-- `handleWrite` takes the connector of an attempt under way out of the list. -/
theorem handleWrite_removed (hpending : w.client.Pending) (hsockfd : 0 ≤ w.client.connector_.sockfd_) :
    (w.client.check .handleWrite (w.client.connector_.started_ = true)).interest .disableAll =
      { w.client.check .handleWrite (w.client.connector_.started_ = true) with
        connector_ := { w.client.connector_ with channel_ := Channel.init }
        interestList := .empty } := by
  let client := w.client.check .handleWrite (w.client.connector_.started_ = true)
  have hlisted : client.interestList client.connector_.sockfd_ =
      some ⟨EPOLLOUT, .connector w.client.connector_.attempt⟩ := by
    change w.client.interestList w.client.connector_.sockfd_ = _
    rw [hpending.listed, Function.update_self]
  rw [client.interest_disableAll hpending.channel_ hsockfd hlisted]
  change ({ client with connector_ := _, interestList := w.client.interestList.close w.client.connector_.sockfd_ } :
    TcpClient) = _
  rw [hpending.listed, InterestList.close_singleton]
  rfl

theorem handleWrite_failed (hpending : w.client.Pending) (hsockfd : 0 ≤ w.client.connector_.sockfd_) {err : Nat}
    (herr : err ≠ 0) :
    ∃ errorCallbacks, w.handleWrite err =
      { w with client := { w.client.check .handleWrite (w.client.connector_.started_ = true) with
          connector_ := { w.client.connector_ with channel_ := Channel.init }
          interestList := .empty
          errors := w.client.errors ++ [w.client.connector_.attempt]
          errorCallbacks } } := by
  unfold handleWrite
  rw [handleWrite_removed hpending hsockfd]
  dsimp only
  rw [if_pos herr]
  exact ⟨_, rfl⟩

/-- The new connection takes over the descriptor. -/
theorem handleWrite_connected (hpending : w.client.Pending) (hsockfd : 0 ≤ w.client.connector_.sockfd_) :
    ∃ conn, w.handleWrite 0 =
      { loop := cancelTimer w.loop w.client.retryTimer_
        client := { w.client.check .handleWrite (w.client.connector_.started_ = true) with
          retryTimer_ := nullptr
          connected_ := true
          connector_ := { w.client.connector_ with channel_ := Channel.init, connected_ := true }
          interestList := Function.update InterestList.empty w.client.connector_.sockfd_
            (some ⟨EPOLLIN ||| EPOLLPRI, .connection w.client.connector_.attempt⟩)
          connection_ := some conn
          newConnections := w.client.newConnections ++
            [{ attempt := w.client.connector_.attempt
               timer := w.client.retryTimer_
               status := w.loop.status w.client.retryTimer_
               executing := w.loop.phase.executing
               before := none
               after := some ⟨EPOLLIN ||| EPOLLPRI, .connection w.client.connector_.attempt⟩ }] } } := by
  unfold handleWrite
  rw [handleWrite_removed hpending hsockfd]
  dsimp only
  rw [if_neg (by simp)]
  exact newConnection_unlisted (w :=
    { w with client := { w.client.check .handleWrite (w.client.connector_.started_ = true) with
        connector_ := { w.client.connector_ with channel_ := Channel.init, connected_ := true }
        interestList := .empty } }) hsockfd rfl

/-- The dispatch of the event that the connector has waited for. -/
theorem handover_handleWrite (hinv : w.client.Handover) (hpending : w.client.Pending)
    (hnone : ∀ p ∈ w.client.batch, p.1 ≠ .connector w.client.connector_.attempt) (err : Nat) :
    (w.handleWrite err).client.Handover := by
  have hcallback : w.client.retryCallback ≠ none := fun h => hpending.not_idle (hinv.unstarted h)
  have hchecked := hinv.handsOver.check .handleWrite (by simp) (w.client.connector_.started_ = true)
  by_cases herr : err = 0
  · subst herr
    obtain ⟨conn, heq⟩ := handleWrite_connected hpending hinv.sockfd_
    rw [heq]
    refine hinv.next (.inr (.inr ⟨rfl, ?_⟩)) hinv.sockfd_ hcallback rfl le_rfl hnone ⟨hchecked.asserts, ?_⟩
    · intro fd r hr
      by_cases hfd : fd = w.client.connector_.sockfd_
      · subst hfd
        simp only [Function.update_self, Option.some.injEq] at hr
        exact ⟨_, by rw [← hr]⟩
      · simp [Function.update_of_ne hfd, InterestList.empty] at hr
    · simp only [List.forall_mem_append]
      exact ⟨hinv.handsOver.unshared, by simp⟩
  · obtain ⟨errorCallbacks, heq⟩ := handleWrite_failed hpending hinv.sockfd_ herr
    rw [heq]
    refine hinv.next
      (.inl ⟨⟨hpending.connected_, hpending.connection_, hpending.leaving, hpending.connector_⟩, rfl, rfl⟩)
      hinv.sockfd_ hcallback rfl le_rfl hnone ⟨hchecked.asserts, hinv.handsOver.unshared⟩

/-- `retry` destroys the old connector before it starts the new one. -/
theorem handover_renewed (hinv : w.client.Handover) (hconnected : w.client.connected_ = false)
    (hcallback : w.client.retryCallback ≠ none) (loop : TimerWorld) (sockfd : Nat) :
    (w.renewed loop sockfd).client.Handover ∧ (w.renewed loop sockfd).client.Idle := by
  have hclient : ({ w.client with retries := w.client.retries ++ [w.client.connected_] } : TcpClient).Handover :=
    hinv.of_same rfl id (List.Sublist.refl _) ⟨hinv.handsOver.asserts, hinv.handsOver.unshared⟩
  exact ⟨hclient.replaceConnector hconnected hcallback sockfd,
    TcpClient.replaceConnector_idle (hclient.unconnected hconnected) sockfd⟩

/-- An attempt whose result comes later is under way. -/
theorem handover_startConnector (hinv : w.client.Handover) (hidle : w.client.Idle) {result : ConnectResult}
    (hprogress : result.inProgress = true) {c' : TcpClient}
    (hsame : c'.registrations = (w.startConnector result).client.registrations)
    (hrest : (c'.batch, c'.newConnections, c'.failures) = ((w.startConnector result).client.batch,
      (w.startConnector result).client.newConnections, (w.startConnector result).client.failures))
    (hcallback : c'.retryCallback ≠ none) : c'.Handover := by
  have hchecked := hinv.handsOver.check .start (by simp) (w.client.connector_.started_ = false)
  rw [startConnector_inProgress hidle hinv.sockfd_ hprogress] at hsame hrest
  have hpending : c'.Pending := by
    refine TcpClient.Pending.of_same ⟨⟨?_, ?_, ?_, ?_⟩, rfl, rfl⟩ hsame
    · exact hidle.connected_
    · exact hidle.connection_
    · exact hidle.leaving
    · exact hidle.connector_
  simp only [Prod.mk.injEq, TcpClient.registrations] at hsame hrest
  obtain ⟨_, ⟨_, _, hsockfd, hattempt⟩, _⟩ := hsame
  obtain ⟨hbatch, hnew, hfailures⟩ := hrest
  refine hinv.next (.inr (.inl hpending)) (by rw [hsockfd]; exact hinv.sockfd_) hcallback hbatch hattempt.ge ?_ ⟨?_, ?_⟩
  · rw [hattempt]
    exact hinv.idle_batch hidle
  · rw [hfailures]
    exact hchecked.asserts
  · rw [hnew]
    exact hchecked.unshared

/-- The steps of a client whose attempts all take their time keep the invariant. -/
theorem handover_step {l : ClientLabel} (hinv : w.client.Handover)
    (hprogress : ∀ result ∈ w.connects l, result.inProgress = true) (hstep : w.step l = some w') :
    w'.client.Handover := by
  have hhandsOver := hinv.handsOver
  cases step_moves hstep with
  | loop => exact hinv
  | setErrorCallback => exact hinv.of_same rfl id (List.Sublist.refl _) ⟨hhandsOver.asserts, hhandsOver.unshared⟩
  | @start result timer loop hnone huser hloop =>
    exact handover_startConnector hinv (hinv.unstarted hnone) (hprogress result (by simp [connects])) rfl rfl (by simp)
  | skips => exact hinv
  | late => exact hinv.of_same rfl id (List.Sublist.refl _) ⟨hhandsOver.asserts, hhandsOver.unshared⟩
  | @retry sockfd result loop now e expired hphase hcallback hcanceled hconnected hfresh hloop =>
    obtain ⟨hrenewed, hidle⟩ := handover_renewed hinv hconnected (by simp [hcallback]) loop sockfd
    have hresult := hprogress result (by simp [connects, hphase, hcanceled, hconnected])
    refine handover_startConnector hrenewed hidle hresult rfl rfl ?_
    rw [startConnector_inProgress hidle hrenewed.sockfd_ hresult]
    obtain ⟨interestList, descriptors, heq⟩ := w.renewed_eq loop sockfd
    simp [TcpClient.check, heq, hcallback]
  | poll hbatch hnodup => exact hinv.poll hbatch hnodup
  | @handles err revents rest hphase hbatch hout =>
    have hpending := hinv.current (.connector w.client.connector_.attempt, revents) (by simp [hbatch]) rfl
    have hnodup := hinv.nodup
    rw [hbatch, List.map_cons, List.nodup_cons] at hnodup
    refine handover_handleWrite (w := w.taken rest) ?_ (hpending.of_same rfl) ?_ err
    · exact hinv.of_same rfl id (by simp [taken, hbatch]) ⟨hhandsOver.asserts, hhandsOver.unshared⟩
    · intro p hp hname
      exact hnodup.1 (List.mem_map.mpr ⟨p, hp, hname⟩)
  | ignores hbatch =>
    exact hinv.of_same rfl id (by simp [taken, hbatch]) ⟨hhandsOver.asserts, hhandsOver.unshared⟩
  | dangles hbatch =>
    exact hinv.of_same rfl id (by simp [taken, hbatch]) ⟨hhandsOver.asserts, hhandsOver.unshared⟩
  | @closes conn hconn =>
    obtain ⟨hestablished, hcallback, hnone⟩ := hinv.connected fun h => by simp [h.connection_] at hconn
    have hchecked := hhandsOver.check .handleClose (by simp)
      (conn.state_ = .kConnected ∨ conn.state_ = .kDisconnecting)
    have hclosed := TcpClient.Established.connectionInterest
      (c := w.client.check .handleClose (conn.state_ = .kConnected ∨ conn.state_ = .kDisconnecting))
      (hestablished.of_same rfl) { conn with state_ := .kDisconnected } .disableAll
    rw [TcpClient.close_eq]
    refine hinv.next (.inr (.inr ⟨hclosed.connected_, hclosed.listed⟩)) hinv.sockfd_ hcallback rfl le_rfl hnone
      ⟨fun hmem => hchecked.asserts ?_, hchecked.unshared⟩
    exact TcpClient.of_mem_check (by simp) (TcpClient.of_mem_check (s := .closeConnection) (by simp) hmem)
  | closesAgain hnone hleaving =>
    obtain ⟨hestablished, hcallback, hbatch⟩ := hinv.connected fun h => hleaving h.leaving
    refine hinv.next (.inr (.inr ⟨hestablished.connected_, hestablished.listed⟩)) hinv.sockfd_ hcallback rfl le_rfl
      hbatch ⟨fun hmem => hhandsOver.asserts ?_, hhandsOver.unshared⟩
    exact TcpClient.of_mem_check (s := .closeConnection) (by simp) hmem
  | @destroys conn rest hleaving =>
    obtain ⟨hestablished, hcallback, hnone⟩ := hinv.connected fun h => by simp [h.leaving] at hleaving
    refine hinv.next (.inr (.inr ⟨hestablished.connected_, fun fd r hr => ?_⟩)) hinv.sockfd_ hcallback rfl le_rfl hnone
      ⟨hhandsOver.asserts, hhandsOver.unshared⟩
    by_cases hfd : fd = conn.sockfd_
    · subst hfd
      simp [TcpClient.destroyConnection, InterestList.close] at hr
    · simp only [TcpClient.destroyConnection, InterestList.close, Function.update_of_ne hfd] at hr
      exact hestablished.listed fd r hr

/-- A connect that returns at once makes `handleWrite` remove a channel that was never registered. -/
theorem startConnector_immediate (hchannel : w.client.connector_.channel_ = Channel.init) {result : ConnectResult}
    (himmediate : ¬result.inProgress = true) : .connectorChannel ∈ (w.startConnector result).client.failures := by
  let client : TcpClient := { w.client.check .start (w.client.connector_.started_ = false) with
    connector_ := { w.client.connector_ with started_ := true } }
  have hmem : .connectorChannel ∈
      ((client.check .handleWrite (client.connector_.started_ = true)).interest .disableAll).failures :=
    TcpClient.interest_disableAll_unregistered hchannel
  unfold startConnector
  dsimp only
  rw [if_neg himmediate]
  unfold handleWrite
  dsimp only
  rw [if_neg (by simp)]
  exact mem_newConnection hmem _

theorem handover_breaks {l : ClientLabel} (hinv : w.client.Handover)
    (himmediate : ∃ result ∈ w.connects l, ¬result.inProgress = true) (hstep : w.step l = some w') :
    .connectorChannel ∈ w'.client.failures := by
  obtain ⟨failed, hmem, hfailed⟩ := himmediate
  cases step_moves hstep with
  | @start result timer loop hnone huser hloop =>
    obtain rfl : failed = result := by simpa [connects] using hmem
    exact startConnector_immediate (hinv.unstarted hnone).channel_ hfailed
  | skips hphase hcallback hcanceled => simp [connects, hphase, hcanceled] at hmem
  | late hphase hcallback hconnected => simp [connects, hphase, hconnected] at hmem
  | @retry sockfd result loop now e expired hphase hcallback hcanceled hconnected hfresh hloop =>
    obtain rfl : failed = result := by simpa [connects, hphase, hcanceled, hconnected] using hmem
    obtain ⟨interestList, descriptors, heq⟩ := w.renewed_eq loop sockfd
    exact startConnector_immediate (by rw [heq]; rfl) hfailed
  | _ => cases hmem

theorem handover_init (sockfd_ : Nat) : (TcpClient.init sockfd_).Handover := by
  have hidle : (TcpClient.init sockfd_).Idle := ⟨⟨rfl, rfl, rfl, rfl⟩, rfl, rfl⟩
  exact ⟨.inl hidle, Int.natCast_nonneg sockfd_, fun _ => hidle, List.nodup_nil, by simp [TcpClient.init],
    by simp [TcpClient.init], by simp [TcpClient.init], by simp [TcpClient.init]⟩

/-- Along a run the connectors hand over unregistered descriptors exactly if every connect takes its time. -/
theorem handsOver_iff {time : Timestamp} {sockfd_ : Nat} {labels : List ClientLabel} {w : ClientWorld}
    (hrun : Run.exec step (init time sockfd_) labels = some w) :
    w.client.HandsOver ↔
      ∀ result ∈ Run.trace step connects (init time sockfd_) labels, result.inProgress = true := by
  refine Run.exec_iff_trace (I := fun w => w.client.Handover) (B := fun w => .connectorChannel ∈ w.client.failures)
    (fun _ _ _ => handover_step) (fun _ _ _ => handover_breaks) (fun _ _ _ h hstep => step_failures hstep h)
    (fun _ hinv => hinv.handsOver) (fun _ hmem hkept => hkept.asserts hmem) (handover_init sockfd_) hrun

/-- The first attempt is still under way when the timer expires; the second one is connected. -/
theorem handsOver_second_attempt :
    ∃ w, Run.exec step (init 0 7)
        [.start (.failed EINPROGRESS) 1, .loop .swap, .loop .endTasks, .loop (.tick 3000000000), .poll [],
          .loop .handleRead, .retry 8 (.failed EINPROGRESS), .loop .settle, .loop .endRead, .loop .swap,
          .loop .endTasks, .poll [(8, EPOLLOUT)], .event 0] = some w ∧
      w.client.newConnections.map NewConnection.attempt = [1] ∧ w.client.HandsOver := by
  apply Run.Reaches.exists_of (p := fun w => w.client.newConnections.map NewConnection.attempt = [1])
  · decide
  · intro w hrun hnew
    exact ⟨hnew, (handsOver_iff hrun).mpr (by decide)⟩

/-- The connect returns `0` at once. The connector registers its channel without any events when it means to remove
it, and the connection is never registered. -/
theorem handsOver_immediate :
    ∃ w, Run.exec step (init 0 7) [.start .connected 1] = some w ∧ w.client.failures = [.connectorChannel] ∧
      w.client.interestList 7 = some ⟨0, .connector 0⟩ ∧ ¬w.client.HandsOver := by
  apply Run.Reaches.exists_of
    (p := fun w => w.client.failures = [.connectorChannel] ∧ w.client.interestList 7 = some ⟨0, .connector 0⟩)
  · decide
  · rintro w hrun ⟨hfailures, hlist⟩
    refine ⟨hfailures, hlist, fun hkept => hkept.asserts ?_⟩
    rw [hfailures]
    exact List.mem_singleton_self _

end ClientWorld

end mudong.ev
