import Mudong.TcpClient.Life
import Mudong.TcpClient.Registered
import Mudong.TcpConnection.Closed
import Mudong.TimerQueue.Undisturbed

namespace mudong.ev

namespace TimerQueue

/-- The timer exists or has existed, and its callback will not be run any more. -/
structure Canceled (q : TimerQueue) (timer : Nat) : Prop where
  used : q.status timer ≠ .unused
  canceled_ : (q.object timer).canceled_ = true

theorem cancelTimerInLoop_canceled (q : TimerQueue) (timer : Nat) : (q.cancelTimerInLoop timer).Canceled timer := by
  have hstatus : (q.cancelTimerInLoop timer).status timer = .deleted := Function.update_self ..
  have hobject : (q.cancelTimerInLoop timer).object timer = (q.object timer).cancel := Function.update_self ..
  exact ⟨by simp [hstatus], by rw [hobject]; rfl⟩

theorem Canceled.cancelTimerInLoop {q : TimerQueue} {timer : Nat} (h : q.Canceled timer) (other : Nat) :
    (q.cancelTimerInLoop other).Canceled timer := by
  by_cases hne : other = timer
  · subst hne
    exact q.cancelTimerInLoop_canceled other
  · have hspares := cancelTimerInLoop_spares hne q
    exact ⟨by rw [hspares.status]; exact h.used, by rw [hspares.object]; exact h.canceled_⟩

end TimerQueue

namespace TimerWorld

variable {w w' : TimerWorld} {l : TimerLabel} {timer : Nat}

/-- What the body of `addTimer` or `cancelTimer` leaves of a cancelled timer. -/
private theorem step_touches_canceled (h : w.Canceled timer) (htouches : w.touches l = some timer)
    (hstep : w.step l = some w') : (w'.object timer).canceled_ = true := by
  cases l with
  | addTimer other =>
    simp only [TimerWorld.step, Option.ite_none_right_eq_some, Option.some.injEq] at hstep
    obtain rfl : other = timer := Option.some.inj htouches
    exact (h.used hstep.1.2.2).elim
  | addTimerElsewhere other =>
    simp only [TimerWorld.step, Option.ite_none_right_eq_some, Option.some.injEq] at hstep
    obtain rfl : other = timer := Option.some.inj htouches
    exact (h.used hstep.1.2).elim
  | cancelTimer other =>
    simp only [TimerWorld.step, Option.ite_none_right_eq_some, Option.some.injEq] at hstep
    obtain ⟨_, rfl⟩ := hstep
    exact (TimerQueue.Canceled.cancelTimerInLoop h other).canceled_
  | task =>
    simp only [TimerWorld.step] at hstep
    split at hstep
    · rename_i task rest hphase htasks
      cases hstep
      cases task with
      | addTimer when_ other =>
        have hobject : (w.addTimerInLoop when_ other w.time).object = w.object := by
          unfold TimerQueue.addTimerInLoop
          dsimp only
          split <;> rfl
        simp only [runTask, hobject]
        exact h.canceled_
      | cancelTimer other => exact (TimerQueue.Canceled.cancelTimerInLoop h other).canceled_
      | other => exact h.canceled_
    · cases hstep
  | _ => cases htouches

/-- A cancelled timer stays cancelled. -/
theorem step_canceled (h : w.Canceled timer) (hstep : w.step l = some w') : w'.Canceled timer := by
  refine ⟨step_remembers hstep timer h.used, ?_⟩
  by_cases hsettles : w.Settles timer l
  · cases l with
    | settle =>
      simp only [TimerWorld.step] at hstep
      split at hstep
      · rename_i now e rest ran hphase
        cases hstep
        obtain rfl : e.second = timer := by simpa [Settles, hphase, TimerPhase.entries] using hsettles
        rw [(TimerQueue.settleTimer_deletes (.inl h.canceled_)).2.1]
        exact h.canceled_
      · cases hstep
    | _ => exact hsettles.elim
  · by_cases htouches : w.touches l = some timer
    · exact step_touches_canceled h htouches hstep
    · rw [(step_untouched htouches hsettles hstep).2.1]
      exact h.canceled_

end TimerWorld

/-- The connectors that are registered ask for no events. -/
def InterestList.Muted (list : InterestList ClientChannel) : Prop :=
  ∀ fd r attempt, list fd = some r → r.channel = .connector attempt → r.events = 0

/-- None of the events tells a connector that its descriptor is writable. -/
def Unwritable (batch : List (ClientChannel × Events)) : Prop :=
  ∀ p ∈ batch, p.1.isConnection = false → Mask.has p.2 EPOLLOUT = false

/-- A poll reports no writable descriptor to connectors that ask for no events. -/
theorem InterestList.Muted.report {c : TcpClient} (h : c.interestList.Muted) {ready : List (Int × Events)}
    {batch : List (ClientChannel × Events)} (hbatch : ready.mapM c.report = some batch) : Unwritable batch := by
  intro p hp hname
  obtain ⟨fd, r, hr, hchannel, hreportable⟩ := TcpClient.report_listed hbatch p hp
  have hzero : r.events = 0 := by
    cases hconnector : r.channel with
    | connector attempt => exact h fd r attempt hr hconnector
    | connection attempt => simp [← hchannel, hconnector, ClientChannel.isConnection] at hname
  have hwithin : Mask.Within p.2 (0 ||| EPOLLERR ||| EPOLLHUP) := by
    rw [← hzero]
    exact hreportable
  by_contra hout
  have hsome := hwithin.has (Bool.not_eq_false _ ▸ hout)
  exact absurd hsome (by decide)

namespace ClientWorld

variable {w w' : ClientWorld}

/-- The retry timer, if there is one, is the one in `retryTimer_` or has been cancelled. -/
def Retires (w : ClientWorld) : Prop :=
  ∀ timer, w.client.retryCallback = some timer →
    timer ≠ nullptr ∧ (w.client.retryTimer_ = timer ∨ w.loop.Canceled timer)

/-- `newConnection` cancels the timer; nothing else in a connector touches it. -/
theorem handleWrite_timer (w : ClientWorld) (err : Nat) :
    let w' := w.handleWrite err
    w'.loop = w.loop ∧ w'.client.retryTimer_ = w.client.retryTimer_ ∨
      w'.loop = cancelTimer w.loop w.client.retryTimer_ ∧ w'.client.retryTimer_ = nullptr := by
  unfold handleWrite
  dsimp only
  split
  · exact .inl ⟨rfl, rfl⟩
  · exact .inr ⟨rfl, rfl⟩

theorem startConnector_timer (w : ClientWorld) (result : ConnectResult) :
    let w' := w.startConnector result
    w'.loop = w.loop ∧ w'.client.retryTimer_ = w.client.retryTimer_ ∨
      w'.loop = cancelTimer w.loop w.client.retryTimer_ ∧ w'.client.retryTimer_ = nullptr := by
  unfold startConnector
  dsimp only
  split
  · exact .inl ⟨rfl, rfl⟩
  · exact handleWrite_timer _ _

/-- `cancelTimer` on the timer in `retryTimer_`. -/
theorem Retires.canceled (h : w.Retires) {timer : Nat} (hcallback : w.client.retryCallback = some timer) :
    (cancelTimer w.loop w.client.retryTimer_).Canceled timer := by
  obtain rfl | hcanceled := (h timer hcallback).2
  · exact w.loop.cancelTimerInLoop_canceled _
  · exact hcanceled.cancelTimerInLoop _

theorem Retires.of_timer (h : w.Retires) (hcallback : w'.client.retryCallback = w.client.retryCallback)
    (htimer : w'.loop = w.loop ∧ w'.client.retryTimer_ = w.client.retryTimer_ ∨
      w'.loop = cancelTimer w.loop w.client.retryTimer_ ∧ w'.client.retryTimer_ = nullptr) : w'.Retires := by
  intro timer hsome
  rw [hcallback] at hsome
  obtain ⟨hloop, htimer⟩ | ⟨hloop, _⟩ := htimer
  · rw [hloop, htimer]
    exact h timer hsome
  · rw [hloop]
    exact ⟨(h timer hsome).1, .inr (h.canceled hsome)⟩

theorem Retires.of_loop (h : w.Retires) {l : TimerLabel} {loop : TimerWorld} (hloop : w.loop.step l = some loop)
    {c' : TcpClient} (hsame : (c'.retryCallback, c'.retryTimer_) = (w.client.retryCallback, w.client.retryTimer_)) :
    (ClientWorld.mk loop c').Retires := by
  obtain ⟨hcallback, htimer⟩ := Prod.mk.inj hsame
  intro timer hsome
  obtain ⟨hne, hheld⟩ := h timer (hcallback ▸ hsome)
  refine ⟨hne, ?_⟩
  obtain hheld | hcanceled := hheld
  · exact .inl (htimer.trans hheld)
  · exact .inr (TimerWorld.step_canceled hcanceled hloop)

theorem Retires.step {l : ClientLabel} (h : w.Retires) (hstep : w.step l = some w') : w'.Retires := by
  cases step_moves hstep with
  | loop hpermits hloop => exact h.of_loop hloop rfl
  | setErrorCallback => exact h
  | @start result timer loop hnone huser hloop =>
    simp only [TimerWorld.step, Option.ite_none_right_eq_some] at hloop
    intro timer' hcallback
    obtain rfl : timer = timer' := Option.some.inj hcallback
    exact ⟨hloop.1.2.1, .inl rfl⟩
  | skips hphase hcallback hcanceled hloop => exact h.of_loop hloop rfl
  | late hphase hcallback hconnected hloop => exact h.of_loop hloop rfl
  | @retry sockfd result loop now e expired hphase hcallback hcanceled hconnected hfresh hloop hcalling =>
    have hsame := startConnector_reported (w.renewed loop sockfd) result
    have htimer := startConnector_timer (w.renewed loop sockfd) result
    obtain ⟨interestList, descriptors, heq⟩ := w.renewed_eq loop sockfd
    rw [heq] at hsame htimer ⊢
    simp only [reported, Prod.mk.injEq] at hsame
    exact (h.of_loop hloop rfl).of_timer hsame.2.1 htimer
  | poll hbatch hnodup hloop => exact h.of_loop hloop rfl
  | @handles err revents rest hphase hbatch hout =>
    have hsame := handleWrite_reported (w.taken rest) err
    simp only [reported, Prod.mk.injEq] at hsame
    exact Retires.of_timer (w := w.taken rest) h hsame.2.1 (handleWrite_timer _ _)
  | ignores => exact h
  | dangles => exact h
  | closes =>
    rw [TcpClient.close_eq]
    exact h
  | closesAgain => exact h
  | destroys => exact h

end ClientWorld

namespace World

/-- The connection has been closed, is not registered, and a dispatch of it is past its close callback. -/
structure Quiescent (w : World) : Prop where
  closed : w.toConn.Closed
  past : w.phase ≠ .handling (some .onClose)

instance (w : World) : Decidable w.Quiescent :=
  decidable_of_iff ((w.state_ = .kDisconnected ∧ w.channel_.pooling = false ∧ w.channel_.events_ = 0) ∧
      w.phase ≠ .handling (some .onClose))
    ⟨fun h => ⟨⟨h.1.1, h.1.2.1, h.1.2.2⟩, h.2⟩, fun h => ⟨⟨h.closed.state_, h.closed.pooling, h.closed.events_⟩, h.past⟩⟩

theorem Quiescent.closedInv {w : World} (h : w.Quiescent) (hinv : w.Inv) : ClosedInv w w :=
  ⟨hinv, h.closed, h.past, rfl, rfl⟩

end World

namespace ClientLife

variable {w w' : ClientLife}

/-- The client is destroyed when it has no connection, its connector has not been reported writable and a connection
that it has had is quiescent. From then on no `startRead()` of that connection is executed, no dispatch of it goes on
to a successful read, and it is not set back by a `shutdown()` or by an exchange begun earlier. -/
def DestroysDetached (w : ClientLife) : LifeLabel → Prop
  | .step _ => True
  | .connection l => w.destroyed = true → ∀ conn ∈ w.conn, conn.LaterCalls l ∧ conn.StaysQuiet l
  | .destroy => w.client.connection_.isNone = true ∧ Unwritable w.client.batch ∧ ∀ conn ∈ w.conn, conn.Quiescent

instance (batch : List (ClientChannel × Events)) : Decidable (Unwritable batch) :=
  inferInstanceAs (Decidable (∀ p ∈ batch, _))

instance (w : ClientLife) : ∀ l, Decidable (w.DestroysDetached l)
  | .step _ => inferInstanceAs (Decidable True)
  | .connection l => inferInstanceAs (Decidable (_ → ∀ conn ∈ w.conn, conn.LaterCalls l ∧ conn.StaysQuiet l))
  | .destroy => inferInstanceAs (Decidable (_ ∧ _ ∧ ∀ conn ∈ w.conn, conn.Quiescent))

/-- Nothing that a destroyed client has left behind calls it back. -/
structure Detached (w : ClientLife) : Prop where
  closing : w.closing = none
  canceled : ∀ timer, w.client.retryCallback = some timer → w.loop.Canceled timer
  muted : w.client.interestList.Muted
  unwritable : Unwritable w.client.batch
  quiet : ∀ conn, w.conn = some conn → ∃ since, World.ClosedInv since conn

/-- The invariant. -/
structure Severed (w : ClientLife) : Prop where
  lives : w.destroyed = false → w.Wired ∧ w.Retires
  conn : ∀ conn, w.conn = some conn → conn.Inv
  gone : w.destroyed = true → w.Detached
  invoked : w.invoked = []

theorem Severed.of_gone (hdestroyed : w.destroyed = true) (hgone : w.Detached) (hinvoked : w.invoked = []) :
    w.Severed := by
  refine ⟨fun hlives => by simp [hdestroyed] at hlives, fun conn hconn => ?_, fun _ => hgone, hinvoked⟩
  obtain ⟨since, hquiet⟩ := hgone.quiet conn hconn
  exact hquiet.inv

/-- `newConnection` establishes the connection, in a task as elsewhere. -/
theorem newborn_inv (phase : TimerPhase) : (newborn phase).Inv := by
  unfold newborn
  dsimp only
  split
  · have hswap : (World.established 0 0).step .swap =
        some { World.established 0 0 with phase := .running, doingPendingTasks_ := true } := rfl
    exact (World.established_inv 0 0).step hswap
  · exact World.established_inv 0 0

theorem connAfter_inv (hinv : ∀ conn, w.conn = some conn → conn.Inv) (world : ClientWorld) (l : ClientLabel) {conn : World}
    (hconn : w.connAfter world l = some conn) : conn.Inv := by
  unfold connAfter at hconn
  split at hconn
  · cases hconn
  · split at hconn
    · cases hconn
      exact newborn_inv _
    · exact hinv conn hconn

/-- `~Connector` takes its entry out of the list, or the entry asks for no events. -/
theorem destroyConnector_muted {c : TcpClient} (hregistered : c.Registered) :
    c.destroyConnector.interestList.Muted := by
  unfold TcpClient.destroyConnector
  split
  · rename_i hconnected
    exact fun fd r attempt hr hname => (hregistered.listed fd r attempt hr hname).2.2.2 hconnected
  · exact fun fd r attempt hr hname => (InterestList.connectorless_close hregistered.listed fd r attempt hr hname).elim

/-- `~TcpClient` of a client without a connection. -/
theorem destroy_detached (hinv : w.Severed) (hlives : w.destroyed = false) (hdetached : w.DestroysDetached .destroy) :
    w.destroy.Detached := by
  obtain ⟨hwired, hretires⟩ := hinv.lives hlives
  obtain ⟨hnone, hunwritable, hquiescent⟩ := hdetached
  have hconnection : w.client.connection_ = none := Option.isNone_iff_eq_none.mp hnone
  let c : TcpClient := { w.client with connection_ := none, leaving := w.client.leaving ++ w.client.foundClosed }
  have hsame : c.destroyConnector.retryCallback = w.client.retryCallback ∧
      c.destroyConnector.batch = w.client.batch := by
    unfold TcpClient.destroyConnector
    split <;> exact ⟨rfl, rfl⟩
  refine ⟨by simp [destroy, TcpClient.forceClosed, hconnection], fun timer hcallback => ?_, ?_, ?_, ?_⟩
  · have hcallback : w.client.retryCallback = some timer := hsame.1.symm.trans hcallback
    simp only [destroy]
    split
    · rename_i hnull
      obtain ⟨hne, hheld | hcanceled⟩ := hretires timer hcallback
      · exact (hne (hheld.symm.trans hnull)).elim
      · exact hcanceled
    · exact hretires.canceled hcallback
  · exact destroyConnector_muted
      (c := c) ⟨hwired.registered.sockfd_, hwired.registered.listed, hwired.registered.owned⟩
  · change Unwritable c.destroyConnector.batch
    rw [hsame.2]
    exact hunwritable
  · intro conn hconn
    have hconn : w.conn = some conn := by simpa [destroy, hconnection] using hconn
    exact ⟨conn, (hquiescent conn hconn).closedInv (hinv.conn conn hconn)⟩

theorem Severed.step {l : LifeLabel} (hinv : w.Severed) (hdetached : w.DestroysDetached l)
    (hstep : w.step l = some w') : w'.Severed := by
  cases step_moves hstep with
  | lives hlives hworld =>
    obtain ⟨hwired, hretires⟩ := hinv.lives hlives
    exact ⟨fun _ => ⟨hwired.step hworld, hretires.step hworld⟩, fun _ => connAfter_inv hinv.conn _ _,
      fun hdestroyed => by simp [hlives] at hdestroyed, hinv.invoked⟩
  | destroy huser hlives => exact .of_gone rfl (destroy_detached hinv hlives hdetached) hinv.invoked
  | loop hdestroyed hpermits hloop =>
    have hgone := hinv.gone hdestroyed
    exact .of_gone hdestroyed ⟨hgone.closing, fun timer hcallback =>
      TimerWorld.step_canceled (hgone.canceled timer hcallback) hloop, hgone.muted, hgone.unwritable, hgone.quiet⟩
      hinv.invoked
  | fires hdestroyed hphase hcallback hloop =>
    have hgone := hinv.gone hdestroyed
    refine .of_gone hdestroyed ⟨hgone.closing, fun timer hcallback =>
      TimerWorld.step_canceled (hgone.canceled timer hcallback) hloop, hgone.muted, hgone.unwritable, hgone.quiet⟩ ?_
    dsimp only
    rw [if_pos (hgone.canceled _ hcallback).canceled_]
    exact hinv.invoked
  | poll hdestroyed hbatch hloop =>
    have hgone := hinv.gone hdestroyed
    exact .of_gone hdestroyed ⟨hgone.closing, fun timer hcallback =>
      TimerWorld.step_canceled (hgone.canceled timer hcallback) hloop, hgone.muted, hgone.muted.report hbatch,
      hgone.quiet⟩ hinv.invoked
  | @event err reported rest hdestroyed hbatch =>
    have hgone := hinv.gone hdestroyed
    have hunwritable := hgone.unwritable
    rw [hbatch] at hunwritable
    have hrest : Unwritable rest := fun p hp => hunwritable p (List.mem_cons_of_mem _ hp)
    obtain ⟨channel, revents⟩ := reported
    cases channel with
    | connector attempt =>
      have hout := hunwritable (.connector attempt, revents) List.mem_cons_self rfl
      refine .of_gone hdestroyed ⟨hgone.closing, hgone.canceled, hgone.muted, hrest, hgone.quiet⟩ ?_
      simpa [dispatch, hout] using hinv.invoked
    | connection attempt =>
      exact .of_gone hdestroyed ⟨hgone.closing, hgone.canceled, hgone.muted, hrest, hgone.quiet⟩ hinv.invoked
  | @destroys conn rest hdestroyed hleaving =>
    have hgone := hinv.gone hdestroyed
    refine .of_gone hdestroyed ⟨hgone.closing, hgone.canceled, fun fd r attempt hr => ?_, hgone.unwritable,
      fun conn hconn => by cases hconn⟩ hinv.invoked
    by_cases hfd : fd = conn.sockfd_
    · subst hfd
      simp [TcpClient.destroyConnection, InterestList.close] at hr
    · simp only [TcpClient.destroyConnection, InterestList.close, Function.update_of_ne hfd] at hr
      exact hgone.muted fd r attempt hr
  | @goes l conn conn' hconn hworld hcloses =>
    by_cases hdestroyed : w.destroyed = true
    · have hgone := hinv.gone hdestroyed
      obtain ⟨since, hquiet⟩ := hgone.quiet conn hconn
      obtain ⟨hlater, hstays⟩ := hdetached hdestroyed conn hconn
      refine .of_gone hdestroyed ⟨hgone.closing, hgone.canceled, hgone.muted, hgone.unwritable, fun conn'' hconn'' => ?_⟩
        hinv.invoked
      obtain rfl := Option.some.inj hconn''
      exact ⟨since, (hquiet.step hlater hworld).1 hstays⟩
    · refine ⟨fun hlives => hinv.lives hlives, fun conn'' hconn'' => ?_, fun h => (hdestroyed h).elim, hinv.invoked⟩
      obtain rfl := Option.some.inj hconn''
      exact (hinv.conn conn hconn).step hworld
  | @closes l conn conn' world hlives hconn hconn' hworld =>
    obtain ⟨hwired, hretires⟩ := hinv.lives hlives
    refine ⟨fun _ => ⟨hwired.step hworld, hretires.step hworld⟩, fun conn'' hconn'' => ?_,
      fun hdestroyed => by simp [hlives] at hdestroyed, hinv.invoked⟩
    obtain rfl := Option.some.inj hconn''
    exact (hinv.conn conn hconn).step hconn'
  | @calls l conn conn' hdestroyed hconn hconn' hcloses =>
    -- A connection that stays quiet does not run `handleClose` again.
    obtain ⟨since, hquiet⟩ := (hinv.gone hdestroyed).quiet conn hconn
    obtain ⟨hlater, hstays⟩ := hdetached hdestroyed conn hconn
    have hquiet' := (hquiet.step hlater hconn').1 hstays
    exact (hcloses (hquiet'.closes.trans hquiet.closes.symm)).elim

end ClientLife

end mudong.ev
